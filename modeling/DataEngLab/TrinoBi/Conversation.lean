/-
What a call of the client promises.

Whatever the server, the connection and the clock do, a call stays within its bounds,
requests and cancels nothing but pages that were named by the page before, and returns
either all rows of all pages or nothing (`execute_safe`).

One promise has a condition: a cell that is a list or a map is not searched for numbers
that are not finite, so a page that holds one gets it through.
-/
import DataEngLab.TrinoBi.Paging

namespace TrinoBi

namespace Client

open Lib

/-! ### Where the statement goes -/

/-- A statement is posted to the one URL for statements. -/
def Addressed : Call → Prop
  | .post url _ _ => url = statementUrl
  | _ => True

section
variable {floatText : Str → Str} {spec : QuerySpec} {started : Rat} {maxTotalBytes : Nat}

theorem checkDeadline_addressed : Only Addressed (checkDeadline started) :=
  .bind (.perform trivial) fun _ => .ite (fun _ => .pure) fun _ => .throw

theorem raising_addressed (f : Option Failure) : Only Addressed (raising f) := by
  cases f with
  | none => exact .pure
  | some f => exact .throw

theorem withCleanup_addressed {α : Type} {close : Call} {closed : Answer close → Option Failure} {message : String}
    {x : S α} (hclose : Addressed close) (hx : Only Addressed x) : Only Addressed (withCleanup close closed message x) := by
  refine .bind (.attempt hx) fun a => ?_
  cases a with
  | error e => exact .bind (.perform hclose) fun _ => .throw
  | ok a =>
      refine .bind (.perform hclose) fun reply => ?_
      split
      · exact .pure
      · exact .throw
      · exact .throw

theorem readBody_addressed {broken : Option Failure} : ∀ (chunks : List Bytes) (total : Nat) (payload : Bytes),
    Only Addressed (readBody started maxTotalBytes broken total payload chunks) := by
  intro chunks
  induction chunks with
  | nil => exact fun _ _ => .bind (raising_addressed broken) fun _ => .pure
  | cons chunk rest ih =>
      intro total payload
      refine .bind checkDeadline_addressed fun _ => .ite (fun _ => ih _ _) fun _ => .ite (fun _ => .throw) fun _ => ?_
      exact .ite (fun _ => .throw) fun _ => .bind (.perform trivial) fun _ => .bind checkDeadline_addressed fun _ => ih _ _

theorem fetch_addressed {total : Nat} {request : Option Str} :
    Only Addressed (fetch spec started maxTotalBytes total request) := by
  refine .bind (.bind (.perform trivial) fun _ => .ite (fun _ => .pure) fun _ => .throw) fun timeout => .bind ?_
    fun response => withCleanup_addressed trivial (.bind checkDeadline_addressed fun _ =>
      .ite (fun _ => .throw) fun _ => readBody_addressed _ _ _)
  cases request with
  | none => exact .bind .lift fun _ => .bind (.perform rfl) fun _ => .lift
  | some url => exact .bind (.perform trivial) fun _ => .lift

theorem pages_addressed : ∀ (rounds : Nat) (request : Option Str) (progress : Progress),
    Only Addressed (pages floatText spec started maxTotalBytes rounds request progress) := by
  intro rounds
  induction rounds with
  | zero => exact fun _ _ => .mapError .throw
  | succ rounds ih =>
      intro request progress
      refine .bind (.mapError .lift) fun _ => .bind (.mapError .lift) fun _ => .bind (.mapError
        (.bind fetch_addressed fun _ => .bind checkDeadline_addressed fun _ => .pure)) fun payload => .bind ?_ ?_
      · exact .bind (.mapError .lift) fun _ => .bind (.mapError .lift) fun _ => .bind (.mapError checkDeadline_addressed)
          fun _ => .bind (.mapError .lift) fun _ => .bind (.mapError checkDeadline_addressed) fun _ => .pure
      · rintro ⟨next, after, state⟩
        cases next with
        | none =>
            exact .mapError (.bind .lift fun _ => .bind .lift fun _ => .bind checkDeadline_addressed fun _ =>
              .bind .lift fun _ => .pure)
        | some url =>
            exact .bind (.mapError .lift) fun _ => .bind (.mapError checkDeadline_addressed) fun _ => ih _ _

theorem execute_addressed (spec : Option QuerySpec) : Only Addressed (execute floatText maxTotalBytes spec) := by
  refine .bind (.perform trivial) fun started => ?_
  cases spec with
  | none => exact .throw
  | some spec =>
      refine .bind (.mapError (.bind checkDeadline_addressed fun _ => .bind (.perform trivial) fun hook =>
        .bind (raising_addressed hook) fun _ => .bind checkDeadline_addressed fun _ => .bind (.perform trivial)
          fun conn => raising_addressed conn)) fun _ => .bind (withCleanup_addressed trivial (.mapError
        (.bind checkDeadline_addressed fun _ => .bind (.perform trivial) fun _ => .bind .lift fun _ => .bind .lift
          fun _ => ?_))) fun _ => .bind checkDeadline_addressed fun _ => .pure
      refine .bind (.attempt (pages_addressed _ _ _)) fun a => ?_
      rcases a with ⟨e, _ | url⟩ | result
      · exact .throw
      · refine .bind (.bind (.perform trivial) fun reply => ?_) fun _ => .throw
        cases reply with
        | none => exact .bind (.perform trivial) fun _ => .pure
        | some f => exact .pure
      · exact .pure

end

/-! ### Interrupts -/

/-- A call was answered with an interrupt. -/
def interrupts : Event Call Answer → Prop
  | ⟨.hook, f⟩ => f = some .interrupt
  | ⟨.getConn _, f⟩ => f = some .interrupt
  | ⟨.baseUrl, reply⟩ => reply = .error .interrupt
  | ⟨.post _ _ _, reply⟩ => reply = .error .interrupt ∨ ∃ r, reply = .ok r ∧ r.broken = some .interrupt
  | ⟨.get _ _, reply⟩ => reply = .error .interrupt ∨ ∃ r, reply = .ok r ∧ r.broken = some .interrupt
  | ⟨.closeResponse, f⟩ => f = some .interrupt
  | ⟨.closeSession, f⟩ => f = some .interrupt
  | _ => False

def Interrupted (l : Log) : Prop := ∃ x ∈ l, interrupts x

/-- A computation that raises no interrupt. -/
def Uninterrupted {α : Type} (x : Except Exn α) : Prop := ∀ e, x = .error e → e ≠ .raised .interrupt

namespace Uninterrupted

variable {α β : Type} {e : Exn}

theorem ok {a : α} : Uninterrupted (.ok a : Except Exn α) := fun e h => by cases h

theorem error (h : e ≠ .raised .interrupt) : Uninterrupted (.error e : Except Exn α) := fun e' he => by
  rwa [← Except.error.inj he]

theorem require {c : Bool} (h : e ≠ .raised .interrupt) : Uninterrupted (require c e) := by
  cases c with
  | true => exact ok
  | false => exact error h

theorem orElse {x : Option α} (h : e ≠ .raised .interrupt) : Uninterrupted (orElse x e) := by
  cases x with
  | none => exact error h
  | some a => exact ok

theorem bind {x : Except Exn α} {f : α → Except Exn β} (hx : Uninterrupted x) (hf : ∀ a, Uninterrupted (f a)) :
    Uninterrupted (x >>= f) := by
  cases x with
  | error e => exact fun e' he => hx e' (by rw [← Except.error.inj he])
  | ok a => exact hf a

theorem checkAll {f : α → Except Exn β} (hf : ∀ a, Uninterrupted (f a)) : ∀ xs, Uninterrupted (checkAll f xs) := by
  intro xs
  induction xs with
  | nil => exact ok
  | cons x xs ih => exact bind (hf x) fun _ => bind ih fun _ => ok

end Uninterrupted

section
variable {floatText : Str → Str} {spec : QuerySpec} (d : List (Str × Json))

theorem decodeDocument_uninterrupted (payload : Bytes) : Uninterrupted (decodeDocument payload) := by
  refine .bind ?_ fun value => .bind (.require (by simp)) fun _ => ?_
  · cases loadsUtf8 ⟨true, true⟩ payload with
    | ok value => exact .ok
    | error e =>
        refine .error ?_
        show (if e = .recursion then Exn.raised .other else .protocol "Trino returned malformed JSON") ≠ _
        split <;> simp
  · cases value with
    | obj kvs => exact .ok
    | _ => exact .error (by simp)

theorem nextUri_uninterrupted : Uninterrupted (nextUri d) := by
  unfold nextUri
  split
  · exact .ok
  · exact .ok
  · split
    · exact .ok
    · exact .error (by simp)
  · exact .error (by simp)

theorem absorb_uninterrupted (progress : Progress) : Uninterrupted (absorb floatText spec progress d) := by
  refine .bind ?_ fun id => .bind ?_ fun _ => .bind (.require (by simp)) fun _ => .bind ?_ fun columns => .bind ?_
    fun rows => .bind (.require (by simp)) fun _ => .bind ?_ fun state => .ok
  · unfold queryIdOf
    split
    · split
      · exact .ok
      · exact .error (by simp)
    · exact .error (by simp)
  · unfold sameQuery
    split
    · exact .ok
    · exact .require (by simp)
  · unfold parseColumns
    split
    · exact .ok
    · exact .ok
    · refine .bind (.require (by simp)) fun _ => .bind (.checkAll (fun item => ?_) _) fun _ =>
        .bind (.require (by simp)) fun _ => .ok
      unfold columnOf
      split
      · split
        · exact .ok
        · exact .error (by simp)
      · exact .error (by simp)
    · exact .error (by simp)
  · unfold parseRows
    split
    · exact .ok
    · exact .ok
    · refine .bind (.orElse (by simp)) fun _ => .bind (.require (by simp)) fun _ => .checkAll (fun item => ?_) _
      unfold rowOf
      split
      · exact .bind (.require (by simp)) fun _ => .bind (.checkAll (fun cell => .bind (.require (by simp)) fun _ =>
          .bind (.orElse (by simp)) fun _ => .require (by simp)) _) fun _ => .ok
      · exact .error (by simp)
    · exact .error (by simp)
  · unfold stateOf
    split
    · split
      · exact .ok
      · exact .error (by simp)
    · exact .error (by simp)

end

/-- A program that raises an interrupt only where a call was answered with one; `exn` is the exception in
what it raises. -/
def Honest {ε α : Type} (exn : ε → Exn) (p : Proc Call Answer ε α) : Prop :=
  ∀ l e, Plays p l (.error e) → exn e = .raised .interrupt → Interrupted l

namespace Honest

variable {ε α β : Type} {exn : ε → Exn}

theorem pure {a : α} : Honest exn (pure a : Proc Call Answer ε α) := fun l e h => by
  cases (plays_pure.mp h).2

theorem throw {e : ε} (h : exn e ≠ .raised .interrupt) : Honest exn (throw e : Proc Call Answer ε α) := fun l e' hplays he => by
  obtain ⟨rfl, heq⟩ := plays_throw.mp hplays
  exact absurd (Except.error.inj heq ▸ he) h

theorem bind {x : Proc Call Answer ε α} {f : α → Proc Call Answer ε β} (hx : Honest exn x) (hf : ∀ a, Honest exn (f a)) :
    Honest exn (x >>= f) := by
  intro l e hplays he
  obtain ⟨e', hraised, heq⟩ | ⟨l₁, l₂, a, rfl, -, hrest⟩ := plays_bind.mp hplays
  · exact hx l e (Except.error.inj heq ▸ hraised) he
  · obtain ⟨y, hy, hinterrupt⟩ := hf a l₂ e hrest he
    exact ⟨y, List.mem_append_right _ hy, hinterrupt⟩

/-- A call: its answer is an interrupt, or what follows is honest. -/
theorem perform {e : Call} {f : Answer e → Proc Call Answer ε β}
    (hf : ∀ reply : Answer e, interrupts ⟨e, reply⟩ ∨ Honest exn (f reply)) : Honest exn (Proc.perform e >>= f) := by
  intro l e' hplays he
  obtain ⟨reply, l', rfl, hrest⟩ := plays_perform_bind.mp hplays
  obtain hinterrupt | hf := hf reply
  · exact ⟨_, List.mem_cons_self, hinterrupt⟩
  · obtain ⟨y, hy, hinterrupt⟩ := hf l' e' hrest he
    exact ⟨y, List.mem_cons_of_mem _ hy, hinterrupt⟩

theorem lift {x : Except Exn α} (hx : Uninterrupted x) : Honest id (lift x) := fun l e hplays he => by
  obtain ⟨rfl, heq⟩ := plays_lift.mp hplays
  exact absurd he (hx e heq.symm)

theorem cancelling {uri : Option Str} {x : S α} (hx : Honest id x) : Honest Prod.fst (cancelling uri x) := by
  intro l e hplays he
  obtain ⟨e' | a, heq, hraised⟩ := plays_mapError.mp hplays
  · obtain rfl := Except.error.inj heq
    exact hx l e' hraised he
  · cases heq

/-- What was raised is raised again after more calls. -/
theorem attempt {x : Proc Call Answer ε α} {f : Except ε α → S β} (hx : Honest exn x) (hok : ∀ a, Honest id (f (.ok a)))
    (herror : ∀ e, exn e ≠ .raised .interrupt → Honest id (f (.error e))) : Honest id (x.attempt >>= f) := by
  intro l e hplays he
  obtain ⟨e', hraised, -⟩ | ⟨l₁, l₂, a, rfl, hattempt, hrest⟩ := plays_bind.mp hplays
  · obtain ⟨a, ha, -⟩ := plays_attempt.mp hraised
    cases ha
  obtain ⟨a', ha, hx'⟩ := plays_attempt.mp hattempt
  obtain rfl := Except.ok.inj ha
  have hlater : Honest id (f a) → Interrupted (l₁ ++ l₂) := fun hf => by
    obtain ⟨y, hy, hinterrupt⟩ := hf l₂ e hrest he
    exact ⟨y, List.mem_append_right _ hy, hinterrupt⟩
  cases a with
  | ok a => exact hlater (hok a)
  | error e' =>
      by_cases hinterrupt : exn e' = .raised .interrupt
      · obtain ⟨y, hy, hy'⟩ := hx l₁ e' hx' hinterrupt
        exact ⟨y, List.mem_append_left _ hy, hy'⟩
      · exact hlater (herror e' hinterrupt)

end Honest

section
variable {floatText : Str → Str} {spec : QuerySpec} {started : Rat} {maxTotalBytes : Nat}

theorem checkDeadline_honest : Honest id (checkDeadline started) :=
  .perform fun now => .inr (by split; exacts [.pure, .throw (by simp)])

theorem raising_honest {f : Option Failure} (hf : f ≠ some .interrupt) : Honest id (raising f) := by
  cases f with
  | none => exact .pure
  | some f => exact .throw (by simpa using hf)

theorem withCleanup_honest {α : Type} {close : Call} {closed : Answer close → Option Failure} {message : String}
    {x : S α} (hx : Honest id x) (hclosed : ∀ reply, closed reply = some .interrupt → interrupts ⟨close, reply⟩) :
    Honest id (withCleanup close closed message x) := by
  refine .attempt hx (fun a => ?_) fun e he => .perform fun _ => .inr (.throw he)
  refine .perform fun reply => ?_
  cases h : closed reply with
  | none => exact .inr .pure
  | some f =>
      cases f with
      | interrupt => exact .inl (hclosed reply h)
      | other => exact .inr (.throw (by simp))

theorem readBody_honest {broken : Option Failure} (hbroken : broken ≠ some .interrupt) :
    ∀ (chunks : List Bytes) (total : Nat) (payload : Bytes),
      Honest id (readBody started maxTotalBytes broken total payload chunks) := by
  intro chunks
  induction chunks with
  | nil => exact fun _ _ => .bind (raising_honest hbroken) fun _ => .pure
  | cons chunk rest ih =>
      intro total payload
      refine .bind checkDeadline_honest fun _ => ?_
      split
      · exact ih _ _
      · split
        · exact .throw (by simp)
        · split
          · exact .throw (by simp)
          · exact .perform fun _ => .inr (.bind checkDeadline_honest fun _ => ih _ _)

/-- An interrupt of a request, or one that breaks its body off, is an answer. -/
theorem send_interrupts {request : Option Str} {timeout : Rat} {l : Log} {r : Except Exn Response}
    (h : Plays (send spec request timeout) l r) :
    (r = .error (.raised .interrupt) → Interrupted l) ∧
      ∀ response, r = .ok response → response.broken = some .interrupt → Interrupted l := by
  have hreply : ∀ {x : Event Call Answer} {reply : Except Failure Response},
      (reply = .error .interrupt ∨ (∃ r, reply = .ok r ∧ r.broken = some .interrupt) → interrupts x) →
      r = reply.mapError Exn.raised → (r = .error (.raised .interrupt) → Interrupted [x]) ∧
        ∀ response, r = .ok response → response.broken = some .interrupt → Interrupted [x] := by
    rintro x reply hx rfl
    refine ⟨fun he => ⟨x, List.mem_singleton_self x, hx (.inl ?_)⟩, fun response hr hbroken =>
      ⟨x, List.mem_singleton_self x, hx (.inr ⟨response, mapError_eq_ok.mp hr, hbroken⟩)⟩⟩
    cases reply with
    | error f => rw [Exn.raised.inj (Except.error.inj he)]
    | ok response => cases he
  cases request with
  | none =>
      obtain ⟨e, he, rfl, rfl⟩ | ⟨data, -, hpost⟩ := plays_lift_bind.mp h
      · refine ⟨fun hr => ?_, fun response hr => by cases hr⟩
        rw [Except.error.inj hr] at he
        exact absurd rfl (Uninterrupted.orElse (e := .raised .other) (by simp) _ he)
      · obtain ⟨reply, l', rfl, hlift⟩ := plays_perform_bind.mp hpost
        obtain ⟨rfl, hr⟩ := plays_lift.mp hlift
        exact hreply (fun h => h) hr
  | some url =>
      obtain ⟨reply, l', rfl, hlift⟩ := plays_perform_bind.mp h
      obtain ⟨rfl, hr⟩ := plays_lift.mp hlift
      exact hreply (fun h => h) hr

theorem fetch_honest {total : Nat} {request : Option Str} : Honest id (fetch spec started maxTotalBytes total request) := by
  refine .bind (.perform fun now => .inr (by split; exacts [.pure, .throw (by simp)])) fun timeout => ?_
  intro l e hplays he
  obtain ⟨e', hraised, heq⟩ | ⟨l₁, l₂, response, rfl, hresponse, hclean⟩ := plays_bind.mp hplays
  · exact (send_interrupts hraised).1 (by rw [← Except.error.inj heq]; exact congrArg _ he)
  · by_cases hbroken : response.broken = some .interrupt
    · obtain ⟨y, hy, hinterrupt⟩ := (send_interrupts hresponse).2 response rfl hbroken
      exact ⟨y, List.mem_append_left _ hy, hinterrupt⟩
    · have hcleanup : Honest id (withCleanup .closeResponse id (spec.name ++ ": Trino response cleanup failed") do
          checkDeadline started
          if response.status ≠ 200 then
            throw (.protocol (spec.name ++ ": Trino returned HTTP status " ++ toString response.status))
          else readBody started maxTotalBytes response.broken total [] response.chunks) := by
        refine withCleanup_honest (.bind checkDeadline_honest fun _ => ?_) fun reply h => h
        split
        · exact .throw (by simp)
        · exact readBody_honest hbroken _ _ _
      obtain ⟨y, hy, hinterrupt⟩ := hcleanup l₂ e hclean he
      exact ⟨y, List.mem_append_right _ hy, hinterrupt⟩

theorem pages_honest : ∀ (rounds : Nat) (request : Option Str) (progress : Progress),
    Honest Prod.fst (pages floatText spec started maxTotalBytes rounds request progress) := by
  intro rounds
  induction rounds with
  | zero => exact fun _ _ => .cancelling (.throw (by simp))
  | succ rounds ih =>
      intro request progress
      refine .bind (.cancelling (.lift (.require (by simp)))) fun _ => .bind (.cancelling (.lift (.require (by simp))))
        fun _ => .bind (.cancelling (.bind fetch_honest fun _ => .bind checkDeadline_honest fun _ => .pure))
        fun payload => .bind ?_ ?_
      · exact .bind (.cancelling (.lift (decodeDocument_uninterrupted _))) fun d => .bind
          (.cancelling (.lift (nextUri_uninterrupted d))) fun _ => .bind (.cancelling checkDeadline_honest) fun _ =>
          .bind (.cancelling (.lift (absorb_uninterrupted d _))) fun _ => .bind (.cancelling checkDeadline_honest)
          fun _ => .pure
      · rintro ⟨next, after, state⟩
        cases next with
        | none =>
            exact .cancelling (.bind (.lift (.require (by simp))) fun _ => .bind (.lift (.orElse (by simp))) fun _ =>
              .bind checkDeadline_honest fun _ => .bind (.lift (.orElse (by simp))) fun _ => .pure)
        | some url =>
            exact .bind (.cancelling (.lift (.require (by simp)))) fun _ => .bind (.cancelling checkDeadline_honest)
              fun _ => ih _ _

end

/-! ### The whole call -/

/-- No number in a value that is handed on is an infinity, at any depth. -/
def Finite (rows : List (List Json)) : Prop := ∀ row ∈ rows, ∀ cell ∈ row, cell.finite = true

/-- What a call promises, whatever it was answered. -/
structure Safe (maxTotalBytes : Nat) (spec : Option QuerySpec) (l : Log) (r : Except Exn QueryResult) : Prop where
  orderly : Orderly maxTotalBytes (exchanges l)
  statement : ∀ x ∈ l, ∀ url data timeout, x.1 = .post url data timeout → url = statementUrl
  canonical : ∀ url ∈ (exchanges l).filterMap Exchange.request ++ cancels l, isNextUri url = true
  cancelled : cancels l = (outstanding (exchanges l)).toList
  raised : ∀ e, r = .error e → (∃ message, e = .protocol message) ∨ Interrupted l
  returned : ∀ result, r = .ok result → ∃ s, spec = some s ∧ Delivered s (exchanges l) result ∧ Finite result.rows

/-- No number in a cell that is a list or a map is an infinity. -/
def NestedFinite (xs : List Exchange) : Prop :=
  ∀ x ∈ xs, ∀ row ∈ x.rows, ∀ cell ∈ row, cell.isContainer = true → cell.finite = true

section
variable {floatText : Str → Str} {spec : QuerySpec} {started : Rat} {maxTotalBytes : Nat} {xs : List Exchange} {l : Log}

theorem next_canonical {x : Exchange} {url : Str} (h : x.next = some url) : isNextUri url = true := by
  rw [Exchange.next, Option.bind_eq_some_iff] at h
  obtain ⟨d, -, hnext⟩ := h
  unfold nextUri at hnext
  split at hnext
  · cases hnext
  · cases hnext
  · split at hnext
    · rename_i hcanonical
      rwa [← Option.some.inj hnext]
    · cases hnext
  · cases hnext

theorem Linked.canonical : ∀ {xs : List Exchange}, Linked xs → ∀ x ∈ xs, ∀ url, x.request = some url →
    isNextUri url = true := by
  intro xs
  induction xs with
  | nil => exact fun _ x hx => by cases hx
  | cons x xs ih =>
      intro h y hy url hurl
      cases xs with
      | nil =>
          obtain rfl := List.mem_singleton.mp hy
          rw [show y.request = none from h] at hurl
          cases hurl
      | cons z rest =>
          obtain ⟨⟨url', hrequest, hnext⟩, hrest⟩ := h
          rcases List.mem_cons.mp hy with rfl | hy
          · obtain rfl := Option.some.inj (hrequest.symm.trans hurl)
            exact next_canonical hnext
          · exact ih hrest y hy url hurl

/-- Everything that is requested after the statement or cancelled was validated. -/
theorem Linked.outstanding_canonical (h : Linked xs) {url : Str} (hurl : outstanding xs = some url) :
    isNextUri url = true := by
  cases xs with
  | nil => cases hurl
  | cons x xs =>
      rw [outstanding] at hurl
      split at hurl
      · exact next_canonical hurl
      · exact h.canonical x List.mem_cons_self url hurl

/-- Calls that neither make nor change an exchange. -/
def Unmarked : Call → Prop
  | .post _ _ _ => False
  | .get _ _ => False
  | .extend _ => False
  | .closeResponse => False
  | .monotonic => False
  | _ => True

theorem note_unmarked {x : Event Call Answer} (h : Unmarked x.1) : note started xs x = xs := by
  obtain ⟨e, reply⟩ := x
  cases e with
  | post url data timeout => exact h.elim
  | get url timeout => exact h.elim
  | extend chunk => exact h.elim
  | closeResponse => exact h.elim
  | monotonic => exact h.elim
  | _ => cases xs <;> rfl

theorem cancel_plays (started : Rat) (xs : List Exchange) {url : Str} {r : Except Exn Unit}
    (h : Plays (cancel url) l r) :
    l.foldl (note started) xs = xs ∧ cancels l = [url] ∧ r = .ok () := by
  obtain ⟨reply, l', rfl, hrest⟩ := plays_perform_bind.mp h
  rw [List.foldl_cons, show note started xs ⟨.delete url, reply⟩ = xs from note_unmarked trivial]
  cases reply with
  | none =>
      obtain ⟨closing, l₁, rfl, hreturn⟩ := plays_perform_bind.mp hrest
      obtain ⟨rfl, rfl⟩ := plays_pure.mp hreturn
      exact ⟨show note started xs ⟨.closeCancelled, closing⟩ = xs from note_unmarked trivial, rfl, rfl⟩
  | some f =>
      obtain ⟨rfl, rfl⟩ := plays_pure.mp hrest
      exact ⟨rfl, rfl, rfl⟩

/-- What has to hold of the exchanges and the cancellations at the end of a call. -/
structure Conducted (spec : QuerySpec) (maxTotalBytes : Nat) (xs : List Exchange) (l : Log)
    (r : Except Exn QueryResult) : Prop where
  orderly : Orderly maxTotalBytes xs
  cancelled : cancels l = (outstanding xs).toList
  returned : ∀ result, r = .ok result → Delivered spec xs result ∧
    ∀ row ∈ result.rows, ∀ cell ∈ row, isInfinite cell = false

theorem executePages_plays {r : Except Exn QueryResult}
    (h : Plays (executePages floatText spec started maxTotalBytes) l r) :
    Conducted spec maxTotalBytes (l.foldl (note started) []) l r := by
  obtain ⟨e, hattempt, -⟩ | ⟨l₁, l₂, a, rfl, hattempt, hrest⟩ := plays_bind.mp h
  · obtain ⟨a, ha, -⟩ := plays_attempt.mp hattempt
    cases ha
  obtain ⟨a', ha, hpages⟩ := plays_attempt.mp hattempt
  obtain rfl := Except.ok.inj ha
  obtain ⟨hnone, hends⟩ := pages_keeps (progressed_start spec maxTotalBytes) rfl l₁ a hpages
  rw [List.foldl_append]
  rcases a with ⟨e, _ | url⟩ | result
  · obtain ⟨rfl, rfl⟩ := plays_throw.mp hrest
    refine ⟨hends.1, ?_, fun result hr => by cases hr⟩
    rw [List.append_nil, hnone, List.foldl_nil, ← hends.2]
    rfl
  · obtain ⟨e', hfailed, -⟩ | ⟨l₃, l₄, u, rfl, hcancel, hthrow⟩ := plays_bind.mp hrest
    · cases (cancel_plays started [] hfailed).2.2
    obtain ⟨rfl, rfl⟩ := plays_throw.mp hthrow
    obtain ⟨hfold, hcancels, -⟩ := cancel_plays started (l₁.foldl (note started) []) hcancel
    rw [List.append_nil, hfold]
    refine ⟨hends.1, ?_, fun result hr => by cases hr⟩
    rw [cancels_append, hnone, hcancels, ← hends.2]
    rfl
  · obtain ⟨rfl, rfl⟩ := plays_pure.mp hrest
    obtain ⟨hs, hdelivered, hcells⟩ := hends
    obtain ⟨x, rest, d, hxs, hd, -, hnext⟩ := hdelivered.last
    refine ⟨hs, ?_, fun result' hr => ?_⟩
    · rw [List.append_nil, hnone, List.foldl_nil, hxs, outstanding_document _ hd, hnext]
      rfl
    · obtain rfl := Except.ok.inj hr
      exact ⟨hdelivered, hcells⟩

theorem Conducted.raise {r : Except Exn QueryResult} (h : Conducted spec maxTotalBytes xs l r) (e : Exn) :
    Conducted spec maxTotalBytes xs l (.error e) :=
  ⟨h.orderly, h.cancelled, fun result hr => by cases hr⟩

/-- Before there is a session, and until its origin is checked, nothing is requested. -/
def Prelude : Call → Prop
  | .monotonic => True
  | .hook => True
  | .getConn _ => True
  | .baseUrl => True
  | _ => False

theorem prelude_log (started : Rat) : ∀ {l : Log}, (∀ x ∈ l, Prelude x.1) → l.foldl (note started) [] = [] ∧ cancels l = [] := by
  intro l
  induction l with
  | nil => exact fun _ => ⟨rfl, rfl⟩
  | cons x l ih =>
      intro h
      obtain ⟨hfold, hnone⟩ := ih fun y hy => h y (List.mem_cons_of_mem x hy)
      obtain ⟨e, reply⟩ := x
      have he : Prelude e := h _ List.mem_cons_self
      cases e with
      | monotonic => exact ⟨hfold, hnone⟩
      | hook => exact ⟨hfold, hnone⟩
      | getConn schema => exact ⟨hfold, hnone⟩
      | baseUrl => exact ⟨hfold, hnone⟩
      | _ => exact he.elim

/-- Nothing was requested and something was raised. -/
theorem conducted_prelude {e : Exn} (h : ∀ x ∈ l, Prelude x.1) :
    Conducted spec maxTotalBytes (l.foldl (note started) []) l (.error e) := by
  obtain ⟨hfold, hnone⟩ := prelude_log started h
  rw [hfold]
  exact ⟨(progressed_start spec maxTotalBytes).orderly, hnone, fun result hr => by cases hr⟩

theorem Conducted.after {l₁ l₂ : Log} {r : Except Exn QueryResult} (h : ∀ x ∈ l₁, Prelude x.1)
    (hrest : Conducted spec maxTotalBytes (l₂.foldl (note started) []) l₂ r) :
    Conducted spec maxTotalBytes ((l₁ ++ l₂).foldl (note started) []) (l₁ ++ l₂) r := by
  obtain ⟨hfold, hnone⟩ := prelude_log started h
  rw [List.foldl_append, hfold]
  refine ⟨hrest.orderly, ?_, hrest.returned⟩
  rw [cancels_append, hnone]
  exact hrest.cancelled

/-- A call that marks nothing, after the pages. -/
theorem Conducted.before {x : Event Call Answer} {r : Except Exn QueryResult} (hfold : note started xs x = xs)
    (hcancels : cancels [x] = []) (h : Conducted spec maxTotalBytes xs l r) :
    Conducted spec maxTotalBytes ([x].foldl (note started) xs) (l ++ [x]) r := by
  rw [List.foldl_cons, List.foldl_nil, hfold]
  refine ⟨h.orderly, ?_, h.returned⟩
  rw [cancels_append, hcancels, List.append_nil]
  exact h.cancelled

theorem checkDeadline_prelude : Only Prelude (checkDeadline started) :=
  .bind (.perform trivial) fun _ => .ite (fun _ => .pure) fun _ => .throw

theorem raising_prelude (f : Option Failure) : Only Prelude (raising f) := by
  cases f with
  | none => exact .pure
  | some f => exact .throw

/-- With a session: its origin, and the pages. -/
theorem session_plays {r : Except Exn QueryResult} (h : Plays (do
      checkDeadline started
      let url ← lift ((← perform .baseUrl).mapError Exn.raised)
      lift (require (url == baseUrl) (.protocol "Trino connection origin does not match the internal service"))
      executePages floatText spec started maxTotalBytes : S QueryResult) l r) :
    Conducted spec maxTotalBytes (l.foldl (note started) []) l r := by
  obtain ⟨e, hlate, rfl⟩ | ⟨l₁, l₂, u, rfl, hcheck, h₁⟩ := plays_bind.mp h
  · exact conducted_prelude (checkDeadline_prelude.plays hlate)
  refine .after (checkDeadline_prelude.plays hcheck) ?_
  obtain ⟨reply, l₃, rfl, h₂⟩ := plays_perform_bind.mp h₁
  refine Conducted.after (show ∀ x ∈ [(⟨.baseUrl, reply⟩ : Event Call Answer)], Prelude x.1 by simp [Prelude]) ?_
  obtain ⟨e, -, rfl, rfl⟩ | ⟨url, -, h₃⟩ := plays_lift_bind.mp h₂
  · exact conducted_prelude (by simp)
  obtain ⟨e, -, rfl, rfl⟩ | ⟨u, -, h₄⟩ := plays_lift_bind.mp h₃
  · exact conducted_prelude (by simp)
  exact executePages_plays h₄

theorem execute_plays {r : Except Exn QueryResult} (h : Plays (execute floatText maxTotalBytes (some spec)) l r) :
    ∃ started l', l = ⟨.monotonic, started⟩ :: l' ∧ Conducted spec maxTotalBytes (l'.foldl (note started) []) l' r := by
  obtain ⟨started, l', rfl, h₁⟩ := plays_perform_bind.mp h
  refine ⟨started, l', rfl, ?_⟩
  have hopen : Only Prelude (Proc.mapError (transported spec) (do
      checkDeadline started
      raising (← perform .hook)
      checkDeadline started
      raising (← perform (.getConn spec.schema)) : S Unit)) :=
    .mapError (.bind checkDeadline_prelude fun _ => .bind (.perform trivial) fun hook => .bind (raising_prelude hook)
      fun _ => .bind checkDeadline_prelude fun _ => .bind (.perform trivial) fun conn => raising_prelude conn)
  obtain ⟨e, hraised, rfl⟩ | ⟨l₁, l₂, u, rfl, hopened, h₂⟩ := plays_bind.mp h₁
  · exact conducted_prelude (hopen.plays hraised)
  refine .after (hopen.plays hopened) ?_
  have hsession : ∀ {l : Log} {r : Except Exn QueryResult}, Plays (withCleanup .closeSession id
      (spec.name ++ ": Trino session cleanup failed") (Proc.mapError (transported spec) (do
        checkDeadline started
        let url ← lift ((← perform .baseUrl).mapError Exn.raised)
        lift (require (url == baseUrl) (.protocol "Trino connection origin does not match the internal service"))
        executePages floatText spec started maxTotalBytes : S QueryResult))) l r →
      Conducted spec maxTotalBytes (l.foldl (note started) []) l r := by
    intro l r hplays
    obtain ⟨l₃, a, reply, rfl, hinside, herror, hok⟩ := withCleanup_plays hplays
    obtain ⟨a', rfl, hpages⟩ := plays_mapError.mp hinside
    have hconducted := session_plays hpages
    rw [List.foldl_append]
    cases a' with
    | error e =>
        rw [herror _ rfl]
        exact .before (x := ⟨.closeSession, reply⟩) (note_unmarked trivial) rfl (hconducted.raise _)
    | ok result =>
        obtain rfl | ⟨e, rfl⟩ := hok result rfl
        · exact .before (x := ⟨.closeSession, reply⟩) (note_unmarked trivial) rfl hconducted
        · exact .before (x := ⟨.closeSession, reply⟩) (note_unmarked trivial) rfl (hconducted.raise _)
  obtain ⟨e, hraised, rfl⟩ | ⟨l₃, l₄, result, rfl, hreturned, h₃⟩ := plays_bind.mp h₂
  · exact hsession hraised
  have hconducted := hsession hreturned
  obtain ⟨x, rest, d, hxs, hd, -, -⟩ := (hconducted.returned result rfl).1.last
  have hsettled : Settled (l₃.foldl (note started) []) := by
    rw [hxs]
    exact settled_cons (document_taken hd)
  rw [List.foldl_append]
  obtain ⟨e, hlate, rfl⟩ | ⟨l₅, l₆, u, rfl, hcheck, hreturn⟩ := plays_bind.mp h₃
  · obtain ⟨now, rfl, -⟩ := checkDeadline_plays hlate
    exact .before hsettled.clock rfl (hconducted.raise e)
  · obtain ⟨now, rfl, -⟩ := checkDeadline_plays hcheck
    obtain ⟨rfl, rfl⟩ := plays_pure.mp hreturn
    rw [List.append_nil]
    exact .before hsettled.clock rfl hconducted

/-! ### What is raised -/

/-- A program that raises the client's own exceptions, or an interrupt that it was answered with. -/
def Reported {α : Type} (p : S α) : Prop :=
  ∀ l e, Plays p l (.error e) → (∃ message, e = .protocol message) ∨ Interrupted l

theorem Interrupted.append_left {l₁ l₂ : Log} (h : Interrupted l₁) : Interrupted (l₁ ++ l₂) := by
  obtain ⟨x, hx, hinterrupt⟩ := h
  exact ⟨x, List.mem_append_left l₂ hx, hinterrupt⟩

theorem Interrupted.append_right {l₁ l₂ : Log} (h : Interrupted l₂) : Interrupted (l₁ ++ l₂) := by
  obtain ⟨x, hx, hinterrupt⟩ := h
  exact ⟨x, List.mem_append_right l₁ hx, hinterrupt⟩

namespace Reported

variable {α β : Type}

theorem bind {x : S α} {f : α → S β} (hx : Reported x) (hf : ∀ a, Reported (f a)) : Reported (x >>= f) := by
  intro l e hplays
  obtain ⟨e', hraised, heq⟩ | ⟨l₁, l₂, a, rfl, -, hrest⟩ := plays_bind.mp hplays
  · rw [Except.error.inj heq]
    exact hx l e' hraised
  · exact (hf a l₂ e hrest).imp_right .append_right

/-- The clauses for the transport turn everything else into the client's exception. -/
theorem transported {x : S α} (hx : Honest id x) : Reported (Proc.mapError (transported spec) x) := by
  intro l e hplays
  obtain ⟨e' | a, heq, hraised⟩ := plays_mapError.mp hplays
  · obtain rfl := Except.error.inj heq
    cases e' with
    | protocol message => exact .inl ⟨message, rfl⟩
    | raised f =>
        cases f with
        | interrupt => exact .inr (hx l _ hraised rfl)
        | other => exact .inl ⟨_, rfl⟩
  · cases heq

theorem withCleanup {close : Call} {closed : Answer close → Option Failure} {message : String} {x : S α}
    (hx : Reported x) (hclosed : ∀ reply, closed reply = some .interrupt → interrupts ⟨close, reply⟩) :
    Reported (withCleanup close closed message x) := by
  intro l e hplays
  obtain ⟨e', hraised, -⟩ | ⟨l₁, l₂, a, rfl, hattempt, hrest⟩ := plays_bind.mp hplays
  · obtain ⟨a, ha, -⟩ := plays_attempt.mp hraised
    cases ha
  obtain ⟨a', ha, hinside⟩ := plays_attempt.mp hattempt
  obtain rfl := Except.ok.inj ha
  cases a with
  | error e' =>
      obtain ⟨reply, l₃, rfl, hthrow⟩ := plays_perform_bind.mp hrest
      obtain rfl := Except.error.inj (plays_throw.mp hthrow).2
      exact (hx l₁ _ hinside).imp_right .append_left
  | ok a =>
      obtain ⟨reply, l₃, rfl, hclose⟩ := plays_perform_bind.mp hrest
      split at hclose
      · cases (plays_pure.mp hclose).2
      · rename_i hreply
        exact .inr (.append_right ⟨_, List.mem_cons_self, hclosed reply hreply⟩)
      · exact .inl ⟨message, Except.error.inj (plays_throw.mp hclose).2⟩

end Reported

theorem checkDeadline_reported : Reported (checkDeadline started) := by
  intro l e hplays
  obtain ⟨now, -, ⟨-, hr⟩ | ⟨-, message, hr⟩⟩ := checkDeadline_plays hplays
  · cases hr
  · exact .inl ⟨message, Except.error.inj hr⟩

theorem executePages_honest : Honest id (executePages floatText spec started maxTotalBytes) := by
  refine .attempt (pages_honest _ _ _) (fun _ => .pure) fun e he => ?_
  rcases e with ⟨e, _ | url⟩
  · exact .throw he
  · refine .bind (.perform fun reply => .inr ?_) fun _ => .throw he
    cases reply with
    | none => exact .perform fun _ => .inr .pure
    | some f => exact .pure

theorem opening_honest : Honest id (do
    checkDeadline started
    raising (← perform .hook)
    checkDeadline started
    raising (← perform (.getConn spec.schema)) : S Unit) := by
  refine .bind checkDeadline_honest fun _ => .perform fun hook => ?_
  by_cases hhook : hook = some .interrupt
  · exact .inl hhook
  refine .inr (.bind (raising_honest hhook) fun _ => .bind checkDeadline_honest fun _ => ?_)
  intro l e hplays he
  obtain ⟨conn, l', rfl, hraised⟩ := plays_perform_bind.mp hplays
  by_cases hconn : conn = some .interrupt
  · exact ⟨_, List.mem_cons_self, hconn⟩
  · obtain ⟨x, hx, hinterrupt⟩ := raising_honest hconn l' e hraised he
    exact ⟨x, List.mem_cons_of_mem _ hx, hinterrupt⟩

theorem session_honest : Honest id (do
    checkDeadline started
    let url ← lift ((← perform .baseUrl).mapError Exn.raised)
    lift (require (url == baseUrl) (.protocol "Trino connection origin does not match the internal service"))
    executePages floatText spec started maxTotalBytes : S QueryResult) := by
  refine .bind checkDeadline_honest fun _ => .perform fun reply => ?_
  have hrest : Uninterrupted (reply.mapError Exn.raised) → Honest id (do
      let url ← lift (reply.mapError Exn.raised)
      lift (require (url == baseUrl) (.protocol "Trino connection origin does not match the internal service"))
      executePages floatText spec started maxTotalBytes : S QueryResult) := fun h =>
    .bind (.lift h) fun _ => .bind (.lift (.require (by simp))) fun _ => executePages_honest
  rcases reply with (_ | _) | url
  · exact .inl rfl
  · exact .inr (hrest (.error (by simp)))
  · exact .inr (hrest .ok)

theorem execute_reported (spec : Option QuerySpec) : Reported (execute floatText maxTotalBytes spec) := by
  intro l e hplays
  obtain ⟨started, l', rfl, h⟩ := plays_perform_bind.mp hplays
  cases spec with
  | none => exact .inl ⟨_, Except.error.inj (plays_throw.mp h).2⟩
  | some spec =>
      have hrest : Reported (do
          Proc.mapError (Client.transported spec) do
            checkDeadline started
            raising (← perform .hook)
            checkDeadline started
            raising (← perform (.getConn spec.schema))
          let result ← Client.withCleanup .closeSession id (spec.name ++ ": Trino session cleanup failed")
            (Proc.mapError (Client.transported spec) do
              checkDeadline started
              let url ← lift ((← perform .baseUrl).mapError Exn.raised)
              lift (require (url == baseUrl)
                (.protocol "Trino connection origin does not match the internal service"))
              executePages floatText spec started maxTotalBytes)
          checkDeadline started
          return result : S QueryResult) :=
        .bind (.transported opening_honest) fun _ => .bind (.withCleanup (.transported session_honest) fun _ hreply => hreply)
          fun _ => .bind checkDeadline_reported fun _ l e hpure => by cases (plays_pure.mp hpure).2
      obtain hprotocol | hinterrupted := hrest l' e h
      · exact .inl hprotocol
      · exact .inr (show Interrupted ([⟨.monotonic, started⟩] ++ l') from hinterrupted.append_right)

/-! ### A run -/

theorem Linked.requested (h : Linked xs) : ∀ url ∈ xs.filterMap Exchange.request, isNextUri url = true := by
  intro url hurl
  obtain ⟨x, hx, hrequest⟩ := List.mem_filterMap.mp hurl
  exact h.canonical x hx url hrequest

theorem Delivered.row_exchange {result : QueryResult} (h : Delivered spec xs result) {row : List Json}
    (hrow : row ∈ result.rows) : ∃ x ∈ xs, row ∈ x.rows := by
  rw [h.rows] at hrow
  obtain ⟨x, hx, hrow⟩ := List.mem_flatMap.mp hrow
  exact ⟨x, List.mem_reverse.mp hx, hrow⟩

theorem Delivered.exchange_row {result : QueryResult} (h : Delivered spec xs result) {x : Exchange} (hx : x ∈ xs)
    {row : List Json} (hrow : row ∈ x.rows) : row ∈ result.rows := by
  rw [h.rows]
  exact List.mem_flatMap.mpr ⟨x, List.mem_reverse.mpr hx, hrow⟩

/-- What was checked of every cell is all there is to check of a number. -/
theorem Conducted.finite {result : QueryResult} (h : Conducted spec maxTotalBytes xs l (.ok result))
    (hnested : NestedFinite xs) : Finite result.rows := by
  obtain ⟨hdelivered, hcells⟩ := h.returned result rfl
  intro row hrow cell hcell
  obtain ⟨x, hx, hxrow⟩ := hdelivered.row_exchange hrow
  cases hcontainer : cell.isContainer with
  | true => exact hnested x hx row hxrow cell hcell hcontainer
  | false =>
      refine Json.finite_of_scalar hcontainer fun text htext => ?_
      have hfloat := hcells row hrow cell hcell
      rwa [htext] at hfloat

theorem execute_conducted {spec : Option QuerySpec} {r : Except Exn QueryResult}
    (h : Plays (execute floatText maxTotalBytes spec) l r) :
    (∃ s, spec = some s ∧ Conducted s maxTotalBytes (exchanges l) l r) ∨
      (spec = none ∧ exchanges l = [] ∧ cancels l = [] ∧ ∃ e, r = .error e) := by
  cases spec with
  | some s =>
      obtain ⟨started, l', rfl, hconducted⟩ := execute_plays h
      exact .inl ⟨s, rfl, hconducted.orderly, hconducted.cancelled, hconducted.returned⟩
  | none =>
      obtain ⟨started, l', rfl, hthrow⟩ := plays_perform_bind.mp h
      obtain ⟨rfl, rfl⟩ := plays_throw.mp hthrow
      exact .inr ⟨rfl, rfl, rfl, _, rfl⟩

/-- **A call keeps its promise** unless a cell that is a list or a map holds an infinity, and a result that
was returned keeps it only then. -/
theorem execute_safe {W : Type} (answer : W → (e : Call) → Answer e × W) (w : W) (floatText : Str → Str)
    (maxTotalBytes : Nat) (spec : Option QuerySpec) :
    let run := record answer (execute floatText maxTotalBytes spec) w
    (NestedFinite (exchanges run.1) → Safe maxTotalBytes spec run.1 run.2) ∧
      ∀ result, run.2 = .ok result → Safe maxTotalBytes spec run.1 run.2 → NestedFinite (exchanges run.1) := by
  intro run
  have hplays : Plays (execute floatText maxTotalBytes spec) run.1 run.2 := record_plays answer _ w
  refine ⟨fun hnested => ?_, fun result hresult hsafe => ?_⟩
  · have hstatement : ∀ x ∈ run.1, ∀ url data timeout, x.1 = .post url data timeout → url = statementUrl := by
      intro x hx url data timeout hpost
      have haddressed := (execute_addressed spec).plays hplays x hx
      rwa [hpost] at haddressed
    have hraised : ∀ e, run.2 = .error e → (∃ message, e = .protocol message) ∨ Interrupted run.1 := fun e he =>
      execute_reported spec run.1 e (he ▸ hplays)
    obtain ⟨s, hs, hconducted⟩ | ⟨-, hempty, hnone, e, he⟩ := execute_conducted hplays
    · refine ⟨hconducted.orderly, hstatement, fun url hurl => ?_, hconducted.cancelled, hraised, fun result hresult => ?_⟩
      · rcases List.mem_append.mp hurl with hrequest | hcancel
        · exact hconducted.orderly.linked.requested url hrequest
        · rw [hconducted.cancelled, Option.mem_toList] at hcancel
          exact hconducted.orderly.linked.outstanding_canonical hcancel
      · rw [hresult] at hconducted
        exact ⟨s, hs, (hconducted.returned result rfl).1, hconducted.finite hnested⟩
    · refine ⟨?_, hstatement, ?_, ?_, hraised, fun result hresult => ?_⟩
      · rw [hempty]
        exact ⟨Nat.zero_le _, trivial, List.nodup_nil, by simp, Nat.zero_le _, by simp⟩
      · rw [hempty, hnone]
        exact fun url hurl => by cases hurl
      · rw [hempty, hnone]
        rfl
      · rw [he] at hresult
        cases hresult
  · obtain ⟨s, -, hdelivered, hfinite⟩ := hsafe.returned result hresult
    exact fun x hx row hrow cell hcell _ => hfinite row (hdelivered.exchange_row hx hrow) cell hcell

end

/-! ### A number in a list -/

/-- `QUERIES[QueryName.NYC_SNAPSHOT]` -/
def nycSnapshot : QuerySpec where
  name := "nyc_snapshot"
  sql := lit "SELECT snapshot_id\nFROM lakehouse.bronze.\"nyc_taxi_trips$refs\"\nWHERE name = 'main'"
  columns := [(lit "snapshot_id", lit "bigint")]
  maxRows := 1
  schema := some (lit "bronze")

/-- One page, whose one cell is a list. -/
def nestedPage : Bytes := asciiBytes (lit
  "\x7b\"id\":\"q1\",\"columns\":[\x7b\"name\":\"snapshot_id\",\"type\":\"bigint\"\x7d],\"data\":[[[1e999]]],\"stats\":\x7b\"state\":\"FINISHED\"\x7d\x7d")

/-- A server that answers a statement with this page, at once. -/
def nestedServer (w : Unit) : (e : Call) → Answer e × Unit
  | .monotonic => ((0 : Rat), w)
  | .hook => (none, w)
  | .getConn _ => (none, w)
  | .baseUrl => (.ok baseUrl, w)
  | .post _ _ _ => (.ok ⟨200, [nestedPage], none⟩, w)
  | .get _ _ => (.error .other, w)
  | .extend _ => ((), w)
  | .closeResponse => (none, w)
  | .delete _ => (none, w)
  | .closeCancelled => (none, w)
  | .closeSession => (none, w)

def nestedRun : Log × Except Exn QueryResult :=
  record nestedServer (execute (fun _ => lit "Infinity") (1024 * 1024) (some nycSnapshot)) ()

theorem nestedRun_returns : (nestedRun.2.toOption.map fun result => result.rows.all (·.all Json.finite)) = some false := by
  decide +kernel

/-- The infinity in the list is handed on. -/
theorem nestedRun_unsafe : ¬ Safe (1024 * 1024) (some nycSnapshot) nestedRun.1 nestedRun.2 := by
  intro hsafe
  obtain ⟨result, hresult, hinfinite⟩ := Option.map_eq_some_iff.mp nestedRun_returns
  have hok : nestedRun.2 = .ok result := by
    cases hr : nestedRun.2 with
    | error e =>
        rw [hr] at hresult
        cases hresult
    | ok result' =>
        rw [hr] at hresult
        rw [Option.some.inj hresult]
  obtain ⟨s, -, -, hfinite⟩ := hsafe.returned result hok
  have hall : result.rows.all (·.all Json.finite) = true :=
    List.all_eq_true.mpr fun row hrow => List.all_eq_true.mpr (hfinite row hrow)
  rw [hall] at hinfinite
  cases hinfinite

end Client

end TrinoBi
