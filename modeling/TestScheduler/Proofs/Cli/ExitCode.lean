import TestScheduler.Pattern.Common
import TestScheduler.Proofs.Cli.Tasks
import TestScheduler.Proofs.Manifest.Validity
import TestScheduler.Proofs.Run.Building

/-! # Exit codes

No failure is hidden. Whatever fails in a run makes everything above it fail, up to the root, and
then the program ends with code 1.
-/

namespace TestScheduler

namespace Program

variable {Expression : Type} [Pattern.Dialect Expression]

/-- The report that a run command makes. -/
def reportFor (invocation : Invocation) (a : Arguments) (r : RunArguments) : Task Report := do
  let c ← effectiveConfig invocation a
  report invocation r (r.applyTo c)

variable {invocation : Invocation} {a : Arguments} {r : RunArguments} {c : RunConfig}
  {files files' : FileStore} {printed printed' : String} {made : Report}

theorem perform_run (command : a.command = .run r) :
    perform invocation a =
      effectiveConfig invocation a >>= fun c => runTests invocation r (r.applyTo c) := by
  unfold perform
  rw [command]

theorem exists_run_of_report
    (h : Task.runOn (report invocation r c) files printed = (.ok made, files', printed')) :
    ∃ (o : RunOptions) (invoker : Invoker) (tree : TestTree) (f : Filter),
      o.run invoker invocation.clock tree f = .ok made := by
  unfold report at h
  obtain ⟨_, files₁, printed₁, -, h⟩ := runOn_bind_eq_ok_iff.mp h
  obtain ⟨f, files₂, printed₂, -, h⟩ := runOn_bind_eq_ok_iff.mp h
  obtain ⟨⟨m, tree⟩, files₃, printed₃, -, h⟩ := runOn_bind_eq_ok_iff.mp h
  dsimp only at h
  split at h
  · cases h
  · obtain ⟨ran, -, -⟩ := runOn_attempt_eq_ok_iff.mp h
    exact ⟨_, _, tree, f, ran⟩

theorem runOn_deliver (failed : made.result.value.verdict.status = .failed) :
    (Task.runOn (deliver r c made) files printed).1 = .ok true ∨
      ∃ path cause, (Task.runOn (deliver r c made) files printed).1 =
        .error (.reportNotWritten path cause) := by
  unfold deliver sayLine
  rw [runOn_bind_of_ok (runOn_lift _)]
  cases r.output with
  | none =>
    dsimp only
    rw [runOn_pure, failed]
    exact .inl rfl
  | some path =>
    dsimp only
    rw [runOn_bind_of_ok (runOn_lift _)]
    generalize (Action.runOn (.write path (made.render c.reportFormat false)) _ _).1 = answer
    cases answer with
    | ok _ =>
      rw [runOn_bind_of_ok (runOn_attempt_ok _ _), runOn_pure, failed]
      exact .inl rfl
    | error cause =>
      rw [runOn_bind_of_error (runOn_attempt_error _ _)]
      exact .inr ⟨path, cause, rfl⟩

theorem runOn_action (words : Arguments.ofWords invocation.words = .ok a) :
    ((action invocation).runOn files printed).1 =
      exitOf (Task.runOn (perform invocation a) files printed).1 := by
  unfold action
  rw [words]
  exact congrArg Prod.fst (Action.runOn_bind ..)

theorem runOn_reportFor
    (done : (Task.runOn (reportFor invocation a r) files printed).1 = .ok made) :
    ∃ c files₁ printed₁ files₂ printed₂,
      Task.runOn (effectiveConfig invocation a) files printed = (.ok c, files₁, printed₁) ∧
        Task.runOn (report invocation r (r.applyTo c)) files₁ printed₁ =
          (.ok made, files₂, printed₂) := by
  rcases ran : Task.runOn (reportFor invocation a r) files printed with ⟨_, files₂, printed₂⟩
  rw [ran] at done
  cases done
  obtain ⟨c, files₁, printed₁, configured, reported⟩ := runOn_bind_eq_ok_iff.mp ran
  exact ⟨c, files₁, printed₁, files₂, printed₂, configured, reported⟩

/-- A program that delivers a report on a failed root ends with code 1, whether or not the report
can be written. -/
theorem code_of_deliver (failed : made.result.value.verdict.status = .failed) :
    (exitOf (Task.runOn (deliver r c made) files printed).1).code = 1 := by
  rcases runOn_deliver failed with delivered | ⟨path, cause, delivered⟩
  · rw [delivered]
    rfl
  · rw [delivered]
    rfl

theorem code_of_failed (words : Arguments.ofWords invocation.words = .ok a)
    (command : a.command = .run r)
    (done : (Task.runOn (reportFor invocation a r) files printed).1 = .ok made)
    (failed : made.result.value.verdict.status = .failed) :
    ((action invocation).runOn files printed).1.code = 1 := by
  obtain ⟨c, files₁, printed₁, files₂, printed₂, configured, reported⟩ := runOn_reportFor done
  rw [runOn_action words, perform_run command, runOn_bind_of_ok configured, runTests,
    runOn_bind_of_ok reported]
  exact code_of_deliver failed

/-- No failure is hidden. Every run, in whatever order the items are served, ends with a report in
which all that is above a failure has failed, and is not cancelled unless the failure is; a suite
that was started has failed exactly if there is a cause. A program whose report holds a failure ends
with code 1. -/
theorem failures_surface :
    (∀ (o : RunOptions) (invoker : Invoker) (clock : Clock) (tree : TestTree) (f : Filter),
      (∃ report log, o.run invoker clock tree f = .ok report ∧
        (o.execute invoker clock tree f).session.events = log ∧
        report.result.Surfaces (ResultTree.ToldIn invoker log)) ∧
      ∀ n a s, Job.Scheduled o.workers (o.job invoker clock tree f)
          (o.dispatcher invoker clock).2 n (.done a) s →
        ∃ report, RunOptions.reportOf tree f ⟨a.tree, s, a.fault⟩ = .ok report ∧
          report.result.Surfaces (ResultTree.CausedIn invoker s.events) ∧
          ((∃ l ∈ report.result.locations, l.value.verdict.status = .failed) →
            ∀ (r : RunArguments) (c : RunConfig) (files : FileStore) (printed : String),
              (exitOf (Task.runOn (deliver r c report) files printed).1).code = 1)) ∧
    (∀ (invocation : Invocation) (a : Arguments) (r : RunArguments) (files : FileStore)
      (printed : String) (made : Report),
      Arguments.ofWords invocation.words = .ok a → a.command = .run r →
      (Task.runOn (reportFor invocation a r) files printed).1 = .ok made →
      (∃ l ∈ made.result.locations, l.value.verdict.status = .failed) →
      ((action invocation).runOn files printed).1.code = 1) := by
  refine ⟨fun o invoker clock tree f => ⟨?_, fun n a s scheduled => ?_⟩, ?_⟩
  · obtain ⟨report, ran, surfaces⟩ := o.run_surfaces invoker clock tree f
    exact ⟨report, _, ran, rfl, surfaces⟩
  · obtain ⟨fault, r, read, surfaces⟩ := RunOptions.surfaces_of_scheduled scheduled
    refine ⟨_, RunOptions.reportOf_of_gives f ⟨fault, read, rfl⟩, surfaces, ?_⟩
    rintro ⟨l, hl, failed⟩ _ _ _ _
    exact code_of_deliver (surfaces.failed l hl failed).1
  · rintro invocation a r files printed made words command done ⟨l, hl, failed⟩
    obtain ⟨_, _, _, _, _, -, reported⟩ := runOn_reportFor done
    obtain ⟨o, invoker, tree, f, ran⟩ := exists_run_of_report reported
    obtain ⟨report, ran', surfaces⟩ := o.run_surfaces invoker invocation.clock tree f
    obtain rfl : made = report := Except.ok.inj (ran.symm.trans ran')
    exact code_of_failed words command done (surfaces.failed l hl failed).1

def sampleRun : RunArguments := { manifest := "tests.json" }

/-- A call that runs a manifest. -/
def sampleInvocation : Invocation :=
  { words := ["run", "tests.json"], variableValue := fun _ => none, home := none
    clock := Clock.from 0, seed := 0 }

/-- A store with a manifest of one test case, which fails. -/
def sampleStore : FileStore :=
  let manifest :=
    "\x7b\"version\":\"1.0\",\"root\":\x7b\"name\":\"Case\",\"outcome\":\"fail\"\x7d\x7d"
  { files := .ofList [("tests.json", manifest)] }

end Program

namespace Program

theorem failures_surface_sample :
    (∃ report, ({ stopOnError := true } : RunOptions).run RunOptions.failingInvoker (Clock.from 0)
        .sample .empty = .ok report ∧
      ∃ l ∈ report.result.locations, l.value.verdict.status = .failed ∧ l.ancestors.length = 2 ∧
        ∀ a ∈ l.ancestors, a.value.verdict.status = .failed) ∧
    (let tree := (Blueprint.build (.node { name := "Case", kind := .leaf } []) (.start 0)).1
      let o : RunOptions := { workers := 2 }
      let clock := Clock.from 0
      ∃ n a s, Job.Scheduled o.workers (o.job RunOptions.failingInvoker clock tree .empty)
          (o.dispatcher RunOptions.failingInvoker clock).2 n (.done a) s ∧
        ∃ report, RunOptions.reportOf tree .empty ⟨a.tree, s, a.fault⟩ = .ok report ∧
          (exitOf (Task.runOn (deliver sampleRun {} report) sampleStore "").1).code = 1) ∧
    ∃ made, (Task.runOn (reportFor sampleInvocation { command := .run sampleRun } sampleRun)
        sampleStore "").1 = .ok made ∧
      ((action sampleInvocation).runOn sampleStore "").1.code = 1 := by
  refine ⟨?_, ?_, ?_⟩
  · obtain ⟨⟨report, log, ran, -, surfaces⟩, -⟩ := failures_surface.1 { stopOnError := true }
      RunOptions.failingInvoker (Clock.from 0) .sample .empty
    have found := of_toOption_any (q := fun report => report.result.locations.any
      fun l => l.value.verdict.status = .failed && l.ancestors.length = 2) (by decide +kernel) ran
    obtain ⟨l, hl, both⟩ := List.any_eq_true.mp found
    obtain ⟨failed, deep⟩ : l.value.verdict.status = .failed ∧ l.ancestors.length = 2 := by
      simpa using both
    exact ⟨report, ran, l, hl, failed, deep, (surfaces.failed l hl failed).2⟩
  · intro tree o clock
    have waiting : Job.Scheduled o.workers (o.job RunOptions.failingInvoker clock tree .empty)
        (o.dispatcher RunOptions.failingInvoker clock).2 0 _ _ := .start
    have served := waiting.step .act (by decide +kernel)
    have permitted := served.step .act (by decide +kernel)
    have started := permitted.step .act (by decide +kernel)
    have called := started.step .act (by decide +kernel)
    have ended := called.step .act (by decide +kernel)
    obtain ⟨report, reported, -, fails⟩ := (failures_surface.1 o RunOptions.failingInvoker clock
      tree .empty).2 _ _ _ ended
    have failed := of_toOption_any (q := fun report => report.result.value.verdict.status = .failed)
      (by decide +kernel) reported
    exact ⟨_, _, _, ended, report, reported,
      fails ⟨_, Location.self_mem_preorder _, of_decide_eq_true failed⟩ sampleRun {} sampleStore ""⟩
  · obtain ⟨made, done, failed⟩ := exists_eq_ok_of_toOption_any
      (p := (Task.runOn (reportFor sampleInvocation { command := .run sampleRun } sampleRun)
        sampleStore "").1)
      (q := fun made => made.result.value.verdict.status = .failed) (by decide +kernel)
    exact ⟨made, done, failures_surface.2 sampleInvocation _ sampleRun sampleStore "" made
      (by decide) rfl done ⟨_, Location.self_mem_preorder _, of_decide_eq_true failed⟩⟩

end Program

end TestScheduler
