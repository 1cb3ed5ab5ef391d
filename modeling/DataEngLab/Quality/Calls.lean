/-
What the quality run calls.

Every call is marked with the place in the run it is made from; the marks change nothing
and say, in a log, what a call was for.  There are calls of the store, jobs that Spark runs
to carry out an action on a data frame, and a mark for each fact that is about to be built,
which records the rule, the status and the diagnostic code it is built with.

A data frame is a value: a job either fails or gives the value of the frame it runs on.
-/
import DataEngLab.Lib.Trace
import DataEngLab.Quality.Contract

namespace Quality

open Lib

/-- The steps of `QualityPipeline.run` that call; `diagnostics` is `persistDiagnostic`. -/
inductive Place where
  | ensureFacts
  | capture
  | readBronze
  | countBronze
  | countInvalid
  | partition
  | writeClean
  | readClean
  | writeQuarantine
  | readQuarantine
  | readback
  | countSilver
  | recheck
  | writeFacts
  | readFacts
  | matchFacts
  | diagnostics
deriving DecidableEq

inductive Effect (S : Type) where
  | store (p : Place) (c : S)
  | job (p : Place)
  | fact (ruleId : RuleId) (status : Status) (diagnostic : Diagnostic)

/-- A call of the store or a job answers or throws. -/
def Answer {S : Type} (A : S → Type) : Effect S → Type
  | .store _ c => Except Thrown (A c)
  | .job _ => Except Thrown Unit
  | .fact _ _ _ => Unit

/-- A part of the run, over a store whose calls have answers in `A`. -/
abbrev Run {S : Type} (A : S → Type) (α : Type) : Type := Proc (Effect S) (Answer A) Thrown α

variable {S : Type} {A : S → Type} {α : Type}

/-- A call of the store, with what it throws. -/
def ask (p : Place) (c : S) : Run A (A c) := Prog.call (.store p c) fun answer => Prog.pure answer

/-- A job, with what it throws. -/
def job (p : Place) : Run A Unit := Prog.call (.job p) fun answer => Prog.pure answer

/-- The mark of a fact that is about to be built. -/
def note (ruleId : RuleId) (status : Status) (diagnostic : Diagnostic) : Run A Unit :=
  Prog.call (.fact ruleId status diagnostic) fun _ => Prog.pure (.ok ())

/-- An action on a data frame: a job that fails or gives the value. -/
def action (p : Place) (value : α) : Run A α := do
  job p
  return value

/-- `try operation catch { case failure: QualityFailure => handler; throw failure }` -/
def onFailure (operation : Run A α) (handler : QualityFailure → Run A Unit) : Run A α :=
  tryCatch operation fun thrown => match thrown with
    | .failure f => do
        handler f
        throw (.failure f)
    | _ => throw thrown

/-- What `controlled` makes of what is thrown: any non-fatal exception of another class becomes the
given failure. -/
def Thrown.controlled (otherwise : QualityFailure) : Thrown → Thrown
  | .failure f => .failure f
  | .illegalArgument _ | .nonFatal => .failure otherwise
  | .fatal => .fatal

/-- `controlled(category, diagnostic, message) { operation }`, the three as the failure they make. -/
def controlled (otherwise : QualityFailure) (operation : Run A α) : Run A α :=
  tryCatch operation fun thrown => throw (thrown.controlled otherwise)

/-! ### Plays -/

/-- A call of the store and its answer. -/
abbrev answered (p : Place) (c : S) (r : Except Thrown (A c)) : Event (Effect S) (Answer A) :=
  ⟨.store p c, r⟩

/-- A job and how it ended. -/
abbrev ran (p : Place) (r : Except Thrown Unit) : Event (Effect S) (Answer A) := ⟨.job p, r⟩

/-- The mark of a fact that is built. -/
abbrev noted (ruleId : RuleId) (status : Status) (diagnostic : Diagnostic) :
    Event (Effect S) (Answer A) :=
  ⟨.fact ruleId status diagnostic, ()⟩

section
variable {l : List (Event (Effect S) (Answer A))} {p : Place}

theorem plays_ask {c : S} {r : Except Thrown (A c)} :
    Plays (ask p c : Run A (A c)) l r ↔ l = [answered p c r] := by
  refine plays_call.trans ⟨?_, ?_⟩
  · rintro ⟨a, l', rfl, h⟩
    obtain ⟨rfl, rfl⟩ := plays_ret.mp h
    rfl
  · rintro rfl
    exact ⟨r, [], rfl, plays_ret.mpr ⟨rfl, rfl⟩⟩

theorem plays_job {r : Except Thrown Unit} : Plays (job p : Run A Unit) l r ↔ l = [ran p r] := by
  refine plays_call.trans ⟨?_, ?_⟩
  · rintro ⟨a, l', rfl, h⟩
    obtain ⟨rfl, rfl⟩ := plays_ret.mp h
    rfl
  · rintro rfl
    exact ⟨r, [], rfl, plays_ret.mpr ⟨rfl, rfl⟩⟩

theorem plays_note {ruleId : RuleId} {status : Status} {diagnostic : Diagnostic}
    {r : Except Thrown Unit} :
    Plays (note ruleId status diagnostic : Run A Unit) l r ↔
      l = [noted ruleId status diagnostic] ∧ r = .ok () := by
  refine plays_call.trans ⟨?_, ?_⟩
  · rintro ⟨a, l', rfl, h⟩
    obtain ⟨rfl, rfl⟩ := plays_ret.mp h
    exact ⟨rfl, rfl⟩
  · rintro ⟨rfl, rfl⟩
    exact ⟨(), [], rfl, plays_ret.mpr ⟨rfl, rfl⟩⟩

theorem plays_action_ok {value a : α} :
    Plays (action p value : Run A α) l (.ok a) ↔ l = [ran p (.ok ())] ∧ a = value := by
  rw [action, plays_bind_ok]
  constructor
  · rintro ⟨l₁, l₂, u, rfl, hjob, hpure⟩
    obtain ⟨rfl, ha⟩ := plays_pure.mp hpure
    rw [plays_job.mp hjob, List.append_nil]
    exact ⟨rfl, Except.ok.inj ha⟩
  · rintro ⟨rfl, rfl⟩
    exact ⟨[ran p (.ok ())], [], (), rfl, plays_job.mpr rfl, plays_pure.mpr ⟨rfl, rfl⟩⟩

theorem plays_action_error {value : α} {e : Thrown} :
    Plays (action p value : Run A α) l (.error e) ↔ l = [ran p (.error e)] := by
  rw [action, plays_bind]
  constructor
  · rintro (⟨e', hjob, he⟩ | ⟨l₁, l₂, u, rfl, -, hpure⟩)
    · obtain rfl : e = e' := Except.error.inj he
      exact plays_job.mp hjob
    · cases (plays_pure.mp hpure).2
  · rintro rfl
    exact .inl ⟨e, plays_job.mpr rfl, rfl⟩

theorem plays_controlled_ok {otherwise : QualityFailure} {operation : Run A α} {a : α} :
    Plays (controlled otherwise operation) l (.ok a) ↔ Plays operation l (.ok a) := by
  rw [controlled, plays_handle]
  constructor
  · rintro (⟨a', h, ha⟩ | ⟨l₁, l₂, e, rfl, -, h⟩)
    · rwa [ha]
    · cases (plays_throw.mp h).2
  · exact fun h => .inl ⟨a, h, rfl⟩

theorem plays_controlled_error {otherwise : QualityFailure} {operation : Run A α} {e : Thrown} :
    Plays (controlled otherwise operation) l (.error e) ↔
      ∃ e', Plays operation l (.error e') ∧ e = e'.controlled otherwise := by
  rw [controlled, plays_handle]
  constructor
  · rintro (⟨a, h, ha⟩ | ⟨l₁, l₂, e', rfl, hop, h⟩)
    · cases ha
    · obtain ⟨rfl, he⟩ := plays_throw.mp h
      exact ⟨e', by rwa [List.append_nil], Except.error.inj he⟩
  · rintro ⟨e', h, rfl⟩
    exact .inr ⟨l, [], e', by simp, h, plays_throw.mpr ⟨rfl, rfl⟩⟩

theorem plays_onFailure_ok {operation : Run A α} {handler : QualityFailure → Run A Unit} {a : α} :
    Plays (onFailure operation handler) l (.ok a) ↔ Plays operation l (.ok a) := by
  rw [onFailure, plays_handle]
  constructor
  · rintro (⟨a', h, ha⟩ | ⟨l₁, l₂, e, rfl, -, h⟩)
    · rwa [ha]
    · exfalso
      cases e with
      | failure f =>
          obtain ⟨l₃, l₄, u, -, -, hthrow⟩ := plays_bind_ok.mp h
          cases (plays_throw.mp hthrow).2
      | _ => cases (plays_throw.mp h).2
  · exact fun h => .inl ⟨a, h, rfl⟩

/-- What a handled operation throws: a failure after its handler has run, or what the handler
throws, or an exception that is not handled. -/
theorem plays_onFailure_error {operation : Run A α} {handler : QualityFailure → Run A Unit}
    {e : Thrown} (h : Plays (onFailure operation handler) l (.error e)) :
    ((∀ f, e ≠ .failure f) ∧ Plays operation l (.error e)) ∨
      ∃ l₁ l₂ f, l = l₁ ++ l₂ ∧ Plays operation l₁ (.error (.failure f)) ∧
        (Plays (handler f) l₂ (.error e) ∨ Plays (handler f) l₂ (.ok ()) ∧ e = .failure f) := by
  rw [onFailure, plays_handle] at h
  obtain ⟨a, -, ha⟩ | ⟨l₁, l₂, e', rfl, hop, h⟩ := h
  · cases ha
  · have hother : (∀ f, e' ≠ .failure f) → Plays (throw e' : Run A α) l₂ (.error e) →
        (∀ f, e ≠ .failure f) ∧ Plays operation (l₁ ++ l₂) (.error e) := by
      intro hne hthrow
      obtain ⟨rfl, he⟩ := plays_throw.mp hthrow
      obtain rfl := Except.error.inj he
      exact ⟨hne, by rwa [List.append_nil]⟩
    cases e' with
    | failure f =>
        refine .inr ⟨l₁, l₂, f, rfl, hop, ?_⟩
        rcases plays_bind.mp h with ⟨e'', hh, he⟩ | ⟨l₃, l₄, u, rfl, hh, hthrow⟩
        · obtain rfl := Except.error.inj he
          exact .inl hh
        · obtain ⟨rfl, he⟩ := plays_throw.mp hthrow
          exact .inr ⟨by rwa [List.append_nil], Except.error.inj he⟩
    | illegalArgument message => exact .inl (hother (fun f hf => nomatch hf) h)
    | nonFatal => exact .inl (hother (fun f hf => nomatch hf) h)
    | fatal => exact .inl (hother (fun f hf => nomatch hf) h)

end

end Quality
