import TestScheduler.Pattern.Common
import TestScheduler.Proofs.Run.Bodies
import TestScheduler.Proofs.Suite.Ordering

/-! # Isolation of contexts

What a hook sees of a run depends only on the way from the root to its node: the settings of the
suites on the way and what their setups left behind. Nothing leaks in from the side or from below,
so invokers that agree on the way show a node the same contexts.
-/

namespace TestScheduler

variable {Expression : Type} [Pattern.Dialect Expression]

namespace Ambient

/-- The seed that the last of some settings sets. -/
def seedOf (seed : UInt64) (ss : List Setting) : UInt64 :=
  (ss.filterMap Setting.randomSeed?).getLast?.getD seed

theorem randomSeed_settled (a : Ambient) (ss : List Setting) :
    (a.settled ss).randomSeed = seedOf a.randomSeed ss := by
  unfold randomSeed settled seedOf
  cases (ss.filterMap Setting.randomSeed?).getLast? <;> rfl

/-- Whether two states differ at most in their random numbers. -/
structure Alike (a b : Ambient) : Prop where
  fixture : a.fixture = b.fixture
  culture : a.culture = b.culture
  uiCulture : a.uiCulture = b.uiCulture
  properties : a.properties = b.properties

theorem Alike.settled {a b : Ambient} (h : a.Alike b) (ss : List Setting) :
    (a.settled ss).Alike (b.settled ss) where
  fixture := h.fixture
  culture := by simp only [Ambient.settled, h.culture]
  uiCulture := by simp only [Ambient.settled, h.uiCulture]
  properties := by simp only [Ambient.settled, h.properties]

end Ambient

namespace Context

variable {c : Context} {n : Node} {response : Response}

/-- The context as a node takes it over from above: the random numbers are its own, and all else is
inherited. -/
def takenOver (c : Context) (n : Node) : Context where
  fixture := c.fixture
  culture := c.culture
  uiCulture := c.uiCulture
  randomizer := { seed := n.seed }
  properties := c.properties
  current := some n
  activeSetups := c.activeSetups
  stopOnError := c.stopOnError
  workers := c.workers

/-- The context after the settings of a suite. -/
def settledBy (c : Context) (suite : Node) : Context :=
  { c with toAmbient := c.toAmbient.settled suite.settings }

/-- The context of a suite after its setup, which is the one that its teardown is given and from
which the contexts of its children are derived. -/
def afterSetUp (c : Context) (suite : Node) (response : Response) : Context where
  toAmbient := response.ambient
  current := c.current
  activeSetups := c.activeSetups ++ if response.ending.guarded.isOk then [suite.id] else []
  stopOnError := c.stopOnError
  workers := c.workers

theorem withSettings_eq_settledBy (c : Context) (n : Node) :
    c.withSettings n.settings = c.settledBy n := c.withSettings_eq n.settings

theorem pushed_eq_afterSetUp :
    (if response.ending.guarded.isOk then
        { c.withSettings n.settings with toAmbient := response.ambient }.pushSetup n.id
      else { c.withSettings n.settings with toAmbient := response.ambient }) =
      c.afterSetUp n response := by
  unfold afterSetUp
  split
  · rfl
  · rw [List.append_nil]
    rfl

end Context

/-- The ids of the suites above a location, outermost first. -/
def Location.outerIds (l : Location Node) : List TestId :=
  (l.ancestors.map (·.value.id)).reverse

theorem Location.outerIds_of_child {l k : Location Node} (child : k ∈ l.children) :
    k.outerIds = l.outerIds ++ [l.value.id] := by
  rw [outerIds, ancestors_of_child child, List.map_cons, List.reverse_cons]
  rfl

namespace Invoker

/-- The call of a suite's setup: the settings of the suite apply before it. -/
def setUpCall (suite : Node) (c : Context) : Call :=
  { hook := .setUp, node := suite, context := c.settledBy suite, stopped := false }

/-- The context with which a location is reached, on the way down from the context with which the
run starts: each suite on the way has applied its settings, and then its setup has left its own
state behind. -/
inductive Hands (invoker : Invoker) (start : Context) (log : List Event) :
    Location Node → Context → Prop where
  | root {t : TestTree} : Hands invoker start log (Location.root t) (start.takenOver t.value)
  | child {l k : Location Node} {c : Context} {response : Response}
      (suite : Hands invoker start log l c) (child : k ∈ l.children)
      (gave : invoker.Gave log (setUpCall l.value c) response)
      (ok : response.ending.guarded.isOk = true) :
      Hands invoker start log k ((c.afterSetUp l.value response).takenOver k.value)

/-- The calls of a node's hooks, given the context with which the node is reached. -/
inductive Shows (invoker : Invoker) (log : List Event) (n : Node) (c : Context) : Call → Prop where
  | test : Shows invoker log n c { hook := .test, node := n, context := c, stopped := false }
  | setUp : Shows invoker log n c (setUpCall n c)
  | tearDown {response : Response} {stopped : Bool}
      (gave : invoker.Gave log (setUpCall n c) response) :
      Shows invoker log n c
        { hook := .tearDown, node := n, context := c.afterSetUp n response, stopped }

/-- Whether a call is one of a hook at a location. -/
def CallsAt (invoker : Invoker) (start : Context) (log : List Event) (l : Location Node)
    (call : Call) : Prop :=
  ∃ c, invoker.Hands start log l c ∧ invoker.Shows log l.value c call

/-- Whether hooks leave the seed of the randomizer as it is. -/
def KeepsSeeds (invoker : Invoker) : Prop :=
  ∀ log call, (invoker log call).ambient.randomSeed = call.context.randomSeed

/-- What a location inherits: what the setup of the suite above it has left behind, and at the root
what the run starts with. -/
inductive Inherits (invoker : Invoker) (start : Ambient) (log : List Event) :
    Location Node → Ambient → Prop where
  | root {t : TestTree} : Inherits invoker start log (Location.root t) start
  | child {l k : Location Node} {setUp : Call} {response : Response} (child : k ∈ l.children)
      (hook : setUp.hook = .setUp) (suite : setUp.node = l.value)
      (gave : invoker.Gave log setUp response) : Inherits invoker start log k response.ambient

/-- What the context of a call at a location tells of the location and of the way to it. -/
structure Fits (invoker : Invoker) (start : Ambient) (log : List Event) (l : Location Node)
    (call : Call) : Prop where
  node : call.node = l.value
  current : call.context.current = some l.value
  activeSetups : call.hook ≠ .tearDown → call.context.activeSetups = l.outerIds
  /-- A test case sees what it inherits, and the setup of a suite what the settings make of that. -/
  inherits : ∃ a, invoker.Inherits start log l a ∧
    (call.hook = .test → call.context.Alike a) ∧
    (call.hook = .setUp → call.context.Alike (a.settled l.value.settings))
  /-- The teardown sees what the setup has left behind, and the suite is active itself if its setup
  succeeded. -/
  tearDown : call.hook = .tearDown → ∃ setUp response, setUp.hook = .setUp ∧
    setUp.node = l.value ∧ invoker.Gave log setUp response ∧
    call.context.toAmbient = response.ambient ∧
    call.context.activeSetups =
      l.outerIds ++ if response.ending.guarded.isOk then [l.value.id] else []
  seed : call.hook = .test → call.context.randomSeed = l.value.seed
  suiteSeed : call.hook = .setUp ∨ call.hook = .tearDown ∧ invoker.KeepsSeeds →
    call.context.randomSeed = Ambient.seedOf l.value.seed l.value.settings

/-- Whether two invokers responded alike to equal calls of the hooks of some nodes, in the runs that
two logs tell of. -/
def AgreeOn (invoker invoker' : Invoker) (log log' : List Event) (ns : List Node) : Prop :=
  ∀ call response response', call.node ∈ ns → invoker.Gave log call response →
    invoker'.Gave log' call response' → response = response'

variable {invoker invoker' : Invoker} {start c c' : Context} {log log' : List Event}
  {l : Location Node} {call call' : Call} {response response' : Response} {ns : List Node}

theorem agreeOn_of_eq
    (h : ∀ before before' call, call.node ∈ ns → invoker before call = invoker' before' call) :
    invoker.AgreeOn invoker' log log' ns := by
  rintro call _ _ hn ⟨before, -, rfl⟩ ⟨before', -, rfl⟩
  exact h before before' call hn

theorem AgreeOn.subset {ms : List Node} (h : invoker.AgreeOn invoker' log log' ns)
    (subset : ms ⊆ ns) : invoker.AgreeOn invoker' log log' ms :=
  fun call response response' hn => h call response response' (subset hn)

/-- A location is reached with its own node and seed, below the suites that were set up for it. -/
theorem Hands.own (h : invoker.Hands start log l c) (outermost : start.activeSetups = []) :
    c.current = some l.value ∧ c.activeSetups = l.outerIds ∧ c.randomSeed = l.value.seed := by
  induction h with
  | root => exact ⟨rfl, outermost, rfl⟩
  | child _ child _ ok ih =>
    refine ⟨rfl, ?_, rfl⟩
    rw [Location.outerIds_of_child child, ← ih.2.1]
    exact congrArg _ (if_pos ok)

theorem Hands.inherits (h : invoker.Hands start log l c) :
    ∃ a, invoker.Inherits start.toAmbient log l a ∧ c.Alike a := by
  cases h with
  | root => exact ⟨_, .root, ⟨rfl, rfl, rfl, rfl⟩⟩
  | child _ child gave => exact ⟨_, .child child rfl rfl gave, ⟨rfl, rfl, rfl, rfl⟩⟩

/-- Invokers that agree on the way to a location hand the same context to it. -/
theorem Hands.unique (h : invoker.Hands start log l c) (h' : invoker'.Hands start log' l c')
    (agree : invoker.AgreeOn invoker' log log' (l.ancestors.map Location.value)) : c = c' := by
  induction h generalizing c' with
  | root =>
    cases h' with
    | root => rfl
    | child _ child => cases Location.ancestors_of_child child
  | child _ child gave _ ih =>
    rw [Location.ancestors_of_child child] at agree
    cases h' with
    | root => cases Location.ancestors_of_child child
    | child suite' child' gave' =>
      have above := (Location.ancestors_of_child child).symm.trans
        (Location.ancestors_of_child child')
      obtain rfl := (List.cons.inj above).1
      obtain rfl := ih suite' (agree.subset (List.subset_cons_self _ _))
      rw [agree _ _ _ List.mem_cons_self gave gave']

theorem Shows.unique {n : Node} (h : invoker.Shows log n c call)
    (h' : invoker'.Shows log' n c call') (agree : invoker.AgreeOn invoker' log log' [n])
    (same : call.hook = call'.hook) : call.context = call'.context := by
  cases h with
  | test =>
    cases h' with
    | test => rfl
    | setUp | tearDown => cases same
  | setUp =>
    cases h' with
    | setUp => rfl
    | test | tearDown => cases same
  | tearDown gave =>
    cases h' with
    | tearDown gave' => rw [agree _ _ _ List.mem_cons_self gave gave']
    | test | setUp => cases same

theorem CallsAt.unique (h : invoker.CallsAt start log l call)
    (h' : invoker'.CallsAt start log' l call')
    (agree : invoker.AgreeOn invoker' log log' ((l :: l.ancestors).map Location.value))
    (same : call.hook = call'.hook) : call.context = call'.context := by
  obtain ⟨c, hands, shows⟩ := h
  obtain ⟨c', hands', shows'⟩ := h'
  obtain rfl := hands.unique hands' (agree.subset (List.subset_cons_self _ _))
  exact shows.unique shows' (agree.subset (List.cons_subset_cons _ (List.nil_subset _))) same

theorem CallsAt.fits (h : invoker.CallsAt start log l call) (outermost : start.activeSetups = []) :
    invoker.Fits start.toAmbient log l call := by
  obtain ⟨c, hands, shows⟩ := h
  obtain ⟨current, activeSetups, seed⟩ := hands.own outermost
  obtain ⟨a, inherits, alike⟩ := hands.inherits
  have seed' : (c.settledBy l.value).randomSeed =
      Ambient.seedOf l.value.seed l.value.settings := by
    rw [← seed]
    exact Ambient.randomSeed_settled _ _
  cases shows with
  | test =>
    exact {
      node := rfl
      current := current
      activeSetups := fun _ => activeSetups
      inherits := ⟨a, inherits, fun _ => alike, nofun⟩
      tearDown := nofun
      seed := fun _ => seed
      suiteSeed := nofun }
  | setUp =>
    exact {
      node := rfl
      current := current
      activeSetups := fun _ => activeSetups
      inherits := ⟨a, inherits, nofun, fun _ => alike.settled _⟩
      tearDown := nofun
      seed := nofun
      suiteSeed := fun _ => seed' }
  | @tearDown response _ gave =>
    refine {
      node := rfl
      current := current
      activeSetups := fun other => absurd rfl other
      inherits := ⟨a, inherits, nofun, nofun⟩
      tearDown := fun _ => ⟨_, response, rfl, rfl, gave, rfl, ?_⟩
      seed := nofun
      suiteSeed := ?_ }
    · rw [← activeSetups]
      rfl
    · rintro (other | ⟨-, keeps⟩)
      · cases other
      · obtain ⟨before, -, rfl⟩ := gave
        exact (keeps _ _).trans seed'

end Invoker

namespace WorkTree

/-- Whether the items below an item stand for nodes below that of the item. -/
def InPlace (t : WorkTree) : Prop :=
  t.Throughout fun s => ∀ c ∈ s.children, c.value.location ∈ s.value.location.children

theorem inPlace_node {item : WorkItem} {below : List WorkTree} :
    InPlace (.node item below) ↔
      (∀ t ∈ below, t.value.location ∈ item.location.children) ∧ ∀ t ∈ below, t.InPlace :=
  Tree.throughout_node

theorem location_create (f : Filter) (l : Location Node) : (create f l).value.location = l := by
  rw [create_eq_node, Tree.value_node]

theorem inPlace_create (f : Filter) (l : Location Node) : (create f l).InPlace := by
  refine throughout_create fun k _ t ht => ?_
  rw [create_eq_node] at ht ⊢
  obtain ⟨c, hc, rfl⟩ := List.mem_map.mp ht
  rw [location_create]
  exact (List.mem_filter.mp hc).1

end WorkTree

namespace Dispatcher

variable {d : Dispatcher} {t : WorkTree} {item : WorkItem} {below : List WorkTree}
  {start c : Context} {s s' : Session} {r : ResultTree} {rs : List ResultTree} {suite : OpenSuite}
  {log es : List Event} {call : Call}

theorem called_of_finishes (called : .called call ∈ s.events ++ es)
    (finishes : ∀ e ∈ es, e.isFinished = true) : .called call ∈ s.events := by
  rcases List.mem_append.mp called with earlier | h
  · exact earlier
  · cases finishes _ h

theorem gave_of_opened (going : s.stopped = false)
    (opened : d.openSuite (item.moved .running) c s = (suite, s')) (logged : s'.events <+: log) :
    ∃ response, d.invoker.Gave log (Invoker.setUpCall item.node c) response ∧
      suite.setUp = response.ending.guarded ∧ suite.context = c.afterSetUp item.node response := by
  have start := events_of_opened opened
  have setUp := setUp_of_opened opened
  have context : suite.context = c.afterSetUp item.node (d.invoker
      (s.events ++ [.started item.node]) ⟨.setUp, item.node, c.withSettings item.node.settings,
        s.stopped⟩) := by
    cases opened
    exact Context.pushed_eq_afterSetUp
  rw [going, Context.withSettings_eq_settledBy] at start setUp context
  rw [start, List.append_cons] at logged
  exact ⟨_, ⟨_, logged, rfl⟩, setUp, context⟩

theorem callsAt_of_opened (going : (d.observeDeadline s).stopped = false)
    (opened : d.openSuite (item.moved .running) c (d.observeDeadline s) = (suite, s'))
    (hands : d.invoker.Hands start log item.location c) (called : .called call ∈ s'.events) :
    .called call ∈ s.events ∨
      ∃ l ∈ item.location.preorder, d.invoker.CallsAt start log l call := by
  rw [events_of_opened opened, going, Session.events_observeDeadline,
    Context.withSettings_eq_settledBy] at called
  rcases List.mem_append.mp called with earlier | h
  · exact .inl earlier
  · obtain rfl : call = ⟨.setUp, item.node, c.settledBy item.node, false⟩ := by
      simpa using h
    exact .inr ⟨item.location, Location.self_mem_preorder _, c, hands, .setUp⟩

theorem Closes.callsAt {response : Response} (closed : d.Closes suite rs s r s')
    (hitem : suite.item.node = item.node)
    (gave : d.invoker.Gave log (Invoker.setUpCall item.node c) response)
    (context : suite.context = c.afterSetUp item.node response)
    (hands : d.invoker.Hands start log item.location c) (called : .called call ∈ s'.events) :
    .called call ∈ s.events ∨
      ∃ l ∈ item.location.preorder, d.invoker.CallsAt start log l call := by
  rw [closed.events, hitem, context] at called
  rcases List.mem_append.mp called with earlier | h
  · exact .inl earlier
  · obtain rfl : call = ⟨.tearDown, item.node, c.afterSetUp item.node response, s.stopped⟩ := by
      simpa using h
    exact .inr ⟨item.location, Location.self_mem_preorder _, c, hands, .tearDown gave⟩

/-- Every call that is added to the log of a run is one at a location that the run gets to. -/
theorem Runs.callsAt (h : d.Runs t c s r s') (inPlace : t.InPlace) (logged : s'.events <+: log)
    (hands : d.invoker.Hands start log t.value.location c) (called : .called call ∈ s'.events) :
    .called call ∈ s.events ∨
      ∃ l ∈ t.value.location.preorder, d.invoker.CallsAt start log l call := by
  induction h using Runs.rec (motive_2 := fun ts c s _ s' _ =>
    (∀ t ∈ ts, t.InPlace ∧
      d.invoker.Hands start log t.value.location (c.forChild t.value.node)) →
    s'.events <+: log → .called call ∈ s'.events →
    .called call ∈ s.events ∨
      ∃ t ∈ ts, ∃ l ∈ t.value.location.preorder, d.invoker.CallsAt start log l call) with
  | cancelled | skipped =>
    rw [Session.events_recordAll, Session.events_observeDeadline] at called
    exact .inl (called_of_finishes called fun _ => ResultTree.isFinished_of_mem_finishes)
  | overtaken =>
    rw [Session.events_recordAll, Session.events_observeDeadline,
      Session.events_observeDeadline] at called
    exact .inl (called_of_finishes called fun _ => ResultTree.isFinished_of_mem_finishes)
  | @leaf item _ c _ _ _ _ _ _ _ _ _ _ _ _ still started body ended =>
    have going := (Session.stopped_of_readClock started).trans still
    rw [events_of_body started body ended, going] at called
    rcases List.mem_append.mp called with earlier | h
    · exact .inl earlier
    · obtain rfl : call = ⟨.test, item.node, c, false⟩ := by simpa using h
      exact .inr ⟨item.location, Location.self_mem_preorder _, c, hands, .test⟩
  | @setUpFailed item _ _ _ s₁ _ _ _ _ going _ _ opened _ closed =>
    obtain ⟨response, gave, -, context⟩ := gave_of_opened going opened
      ((List.prefix_append _ _).trans (closed.longer.trans logged))
    rcases closed.callsAt (item_of_opened opened) gave context hands called with earlier | at_item
    · have earlier := called_of_finishes (s := s₁) earlier
        fun _ => ResultTree.isFinished_of_mem_finishesEach
      exact callsAt_of_opened going opened hands earlier
    · exact .inr at_item
  | @suite item _ _ _ _ _ _ _ _ _ _ going _ _ opened setUp children closed ih =>
    obtain ⟨inPlace, below⟩ := WorkTree.inPlace_node.mp inPlace
    obtain ⟨response, gave, ended, context⟩ := gave_of_opened going opened
      (children.longer.trans (closed.longer.trans logged))
    rcases closed.callsAt (item_of_opened opened) gave context hands called with earlier | at_item
    · have ok : response.ending.guarded.isOk = true := by
        rw [← ended, setUp]
        rfl
      rcases ih (fun t ht => ⟨below t ht, context ▸ hands.child (inPlace t ht) gave ok⟩)
        (closed.longer.trans logged) earlier with earlier | ⟨t, ht, l, hl, at_l⟩
      · exact callsAt_of_opened going opened hands earlier
      · exact .inr ⟨l, Location.mem_preorder_of_child (inPlace t ht) hl, at_l⟩
    · exact .inr at_item
  | nil _ _ called => exact .inl called
  | @cons t ts c s s₁ s₂ _ _ _ rest ih ih' each logged called =>
    obtain ⟨⟨inPlace, hands⟩, others⟩ := List.forall_mem_cons.mp each
    rcases ih' others logged called with earlier | ⟨t, ht, l, hl, at_l⟩
    · rcases ih inPlace (rest.longer.trans logged) hands earlier with earlier | ⟨l, hl, at_l⟩
      · exact .inl earlier
      · exact .inr ⟨_, List.mem_cons_self, l, hl, at_l⟩
    · exact .inr ⟨t, List.mem_cons_of_mem _ ht, l, hl, at_l⟩

end Dispatcher

namespace RunOptions

theorem activeSetups_context (o : RunOptions) (root : Node) :
    (o.context root).activeSetups = [] := by
  cases h : o.culture <;> simp only [context, h] <;> rfl

theorem execute_callsAt (o : RunOptions) (invoker : Invoker) (clock : Clock) (tree : TestTree)
    (f : Filter) {call : Call}
    (called : .called call ∈ (o.execute invoker clock tree f).session.events) :
    ∃ l ∈ tree.locations, invoker.CallsAt (o.context tree.value)
      (o.execute invoker clock tree f).session.events l call := by
  obtain ⟨r, s, gives, runs⟩ := o.execute_runs invoker clock f tree
  rw [gives.session] at called ⊢
  have root : (o.dispatcher invoker clock).1.invoker.Hands (o.context tree.value) s.events
      (WorkTree.create f (Location.root tree)).value.location
      ((o.context tree.value).forChild tree.value) := by
    rw [WorkTree.location_create]
    exact .root
  have found := runs.callsAt (WorkTree.inPlace_create f _) (List.prefix_refl _) root called
  rw [events_dispatcher, WorkTree.location_create, invoker_dispatcher] at found
  exact found.resolve_left List.not_mem_nil

/-- What the hooks of a node see is determined by the way from the root to the node: two runs whose
invokers agree on that way, whatever they do elsewhere, show it the same contexts. -/
theorem run_isolated (o : RunOptions) (invoker : Invoker) (clock : Clock) (tree : TestTree)
    (f : Filter) :
    ∃ report log, o.run invoker clock tree f = .ok report ∧
      (o.execute invoker clock tree f).session.events = log ∧
      (∀ call, .called call ∈ log →
        ∃ l ∈ tree.locations, invoker.CallsAt (o.context tree.value) log l call) ∧
      (∀ l call, invoker.CallsAt (o.context tree.value) log l call →
        invoker.Fits (o.context tree.value).toAmbient log l call) ∧
      ∀ (invoker' : Invoker) (clock' : Clock) (log' : List Event),
        (o.execute invoker' clock' tree f).session.events = log' → ∀ l ∈ tree.locations,
        invoker.AgreeOn invoker' log log' ((l :: l.ancestors).map Location.value) →
        (∀ call call', invoker.CallsAt (o.context tree.value) log l call →
          invoker'.CallsAt (o.context tree.value) log' l call' → call.hook = call'.hook →
          call.context = call'.context) ∧
        ((∀ k ∈ tree.locations, k.value = l.value → k = l) →
          ∀ call call', .called call ∈ log → .called call' ∈ log' →
            call.node = l.value → call'.node = l.value → call.hook = call'.hook →
            call.context = call'.context) := by
  obtain ⟨r, s, gives, -⟩ := o.execute_runs invoker clock f tree
  have outermost := o.activeSetups_context tree.value
  refine ⟨_, _, reportOf_of_gives f gives, rfl, fun call => o.execute_callsAt invoker clock tree f,
    fun l call at_l => at_l.fits outermost, ?_⟩
  rintro invoker' clock' _ rfl l - agree
  refine ⟨fun call call' at_l at_l' => at_l.unique at_l' agree, ?_⟩
  intro only call call' called called' node node' same
  obtain ⟨k, hk, at_k⟩ := o.execute_callsAt invoker clock tree f called
  obtain ⟨k', hk', at_k'⟩ := o.execute_callsAt invoker' clock' tree f called'
  obtain rfl := only k hk ((at_k.fits outermost).node.symm.trans node)
  obtain rfl := only k' hk' ((at_k'.fits outermost).node.symm.trans node')
  exact at_k.unique at_k' agree same

/-- Everything succeeds, but the suite of fast tests changes its context. -/
def meddlingInvoker : Invoker := fun log call =>
  if call.node.name = "Fast" then
    { ending := .finished .passed
      ambient := { call.context.toAmbient with culture := "changed" } }
  else passingInvoker log call

end RunOptions

end TestScheduler

namespace TestScheduler.RunOptions

theorem run_isolated_sample :
    let slow := TestTree.sample.locations.get ⟨4, by decide⟩
    slow.value.name = "Slow" ∧
      ∃ log log',
        (({} : RunOptions).execute passingInvoker (Clock.from 0) .sample .empty).session.events =
          log ∧
        (({} : RunOptions).execute meddlingInvoker (Clock.from 0) .sample .empty).session.events =
          log' ∧
        passingInvoker.AgreeOn meddlingInvoker log log'
          ((slow :: slow.ancestors).map Location.value) ∧
        ∀ call call', .called call ∈ log → .called call' ∈ log' → call.node = slow.value →
          call'.node = slow.value → call.hook = call'.hook → call.context = call'.context := by
  intro slow
  have names : ∀ n ∈ (slow :: slow.ancestors).map Location.value, n.name ≠ "Fast" := by decide
  have agree (log log' : List Event) : passingInvoker.AgreeOn meddlingInvoker log log'
      ((slow :: slow.ancestors).map Location.value) := by
    refine Invoker.agreeOn_of_eq fun before before' call hn => ?_
    rw [meddlingInvoker, if_neg (names _ hn)]
    rfl
  obtain ⟨report, log, -, hlog, -, -, two⟩ :=
    run_isolated {} passingInvoker (Clock.from 0) .sample .empty
  refine ⟨by decide, log, _, hlog, rfl, agree _ _, ?_⟩
  exact (two meddlingInvoker (Clock.from 0) _ rfl slow (List.get_mem ..) (agree _ _)).2 (by decide)

end TestScheduler.RunOptions
