import TestScheduler.Cli.Program

/-! # Carrying tasks out

Actions that follow one another are carried out one after another, and a task goes on only when
what comes before it succeeds.
-/

namespace TestScheduler

namespace Action

variable {α β : Type}

theorem bind_done (a : Action α) : a.bind done = a := by
  induction a with
  | done result => rfl
  | readFile path next ih => exact congrArg (readFile path) (funext ih)
  | isPresent path next ih => exact congrArg (isPresent path) (funext ih)
  | makeDirectory path next ih => exact congrArg (makeDirectory path) (funext ih)
  | writeFile path text next ih => exact congrArg (writeFile path text) (funext ih)
  | print text next ih => exact congrArg (print text) (funext ih)

theorem bind_bind {γ : Type} (a : Action α) (f : α → Action β) (g : β → Action γ) :
    (a.bind f).bind g = a.bind fun x => (f x).bind g := by
  induction a with
  | done result => rfl
  | readFile path next ih => exact congrArg (readFile path) (funext ih)
  | isPresent path next ih => exact congrArg (isPresent path) (funext ih)
  | makeDirectory path next ih => exact congrArg (makeDirectory path) (funext ih)
  | writeFile path text next ih => exact congrArg (writeFile path text) (funext ih)
  | print text next ih => exact congrArg (print text) (funext ih)

instance : LawfulMonad Action := LawfulMonad.mk' Action bind_done (fun _ _ => rfl) bind_bind

theorem runOn_bind (a : Action α) (f : α → Action β) (files : FileStore) (printed : String) :
    (a >>= f).runOn files printed =
      (f (a.runOn files printed).1).runOn (a.runOn files printed).2.1
        (a.runOn files printed).2.2 := by
  induction a generalizing files printed with
  | done result => rfl
  | readFile path next ih => exact ih _ files printed
  | isPresent path next ih => exact ih _ files printed
  | print text next ih => exact ih _ files _
  | makeDirectory path next ih =>
    change (makeDirectory path fun answer => (next answer).bind f).runOn files printed = _
    simp only [runOn]
    cases files.makeDirectory path with
    | ok files' => exact ih _ files' printed
    | error e => exact ih _ files printed
  | writeFile path text next ih =>
    change (writeFile path text fun answer => (next answer).bind f).runOn files printed = _
    simp only [runOn]
    cases files.write path text with
    | ok files' => exact ih _ files' printed
    | error e => exact ih _ files printed

end Action

namespace Program

variable {α β : Type} {p : Task α} {f : α → Task β} {files files' : FileStore}
  {printed printed' : String}

/-- Carries a task out on a file store. -/
def Task.runOn (p : Task α) (files : FileStore) (printed : String) :
    Except ProgramError α × FileStore × String :=
  Action.runOn p.run files printed

theorem runOn_bind_of_ok {a : α} (h : Task.runOn p files printed = (.ok a, files', printed')) :
    Task.runOn (p >>= f) files printed = Task.runOn (f a) files' printed' := by
  unfold Task.runOn at h ⊢
  rw [ExceptT.run_bind, Action.runOn_bind, h]

theorem runOn_bind_of_error {e : ProgramError}
    (h : Task.runOn p files printed = (.error e, files', printed')) :
    Task.runOn (p >>= f) files printed = (.error e, files', printed') := by
  unfold Task.runOn at h ⊢
  rw [ExceptT.run_bind, Action.runOn_bind, h]
  rfl

theorem runOn_bind_eq_ok_iff {b : β} :
    Task.runOn (p >>= f) files printed = (.ok b, files', printed') ↔
      ∃ a files₁ printed₁, Task.runOn p files printed = (.ok a, files₁, printed₁) ∧
        Task.runOn (f a) files₁ printed₁ = (.ok b, files', printed') := by
  rcases h : Task.runOn p files printed with ⟨e | a, files₁, printed₁⟩
  · simp [runOn_bind_of_error h]
  · rw [runOn_bind_of_ok h]
    constructor
    · intro h
      exact ⟨a, files₁, printed₁, rfl, h⟩
    · rintro ⟨a, files₁, printed₁, same, h⟩
      cases same
      exact h

theorem runOn_pure (a : α) : Task.runOn (pure a) files printed = (.ok a, files, printed) := rfl

theorem runOn_lift (a : Action α) :
    Task.runOn (lift a) files printed =
      (.ok (a.runOn files printed).1, (a.runOn files printed).2) := by
  change (Except.ok <$> a : Action (Except ProgramError α)).runOn files printed = _
  rw [map_eq_pure_bind, Action.runOn_bind]
  rfl

theorem runOn_attempt_ok {ε : Type} (g : ε → ProgramError) (a : α) :
    Task.runOn (attempt g (.ok a)) files printed = (.ok a, files, printed) := rfl

theorem runOn_attempt_error {ε : Type} (g : ε → ProgramError) (e : ε) :
    Task.runOn (attempt g (.error e) : Task α) files printed = (.error (g e), files, printed) := rfl

theorem runOn_attempt_eq_ok_iff {ε : Type} {g : ε → ProgramError} {x : Except ε α} {a : α} :
    Task.runOn (attempt g x) files printed = (.ok a, files', printed') ↔
      x = .ok a ∧ files = files' ∧ printed = printed' := by
  cases x with
  | ok b => simp [runOn_attempt_ok]
  | error e => simp [runOn_attempt_error]

end Program

end TestScheduler
