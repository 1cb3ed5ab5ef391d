/-
The probe reports whatever the resolver and the catalog do, but for what it does not catch.

An exception that no clause of `probe_catalog` names (`Raised.escapes`) leaves it, and so does
whatever the closing of an `HTTPError` raises.  `escaping` reads off an answer whether it brings
one; besides the answers of the runtime that is a redirection whose `Location` cannot be parsed,
since the handler parses it before it asks whether to follow.  An accepted origin without a port
is the other case: one check accepts it, the next one raises over it.

Everything else ends in a result that `render_metrics` takes, and in a success only for a
configuration that was read in time (`probe_reports_iff`).
-/
import DataEngLab.Lib.Alarms
import DataEngLab.Observability.Probe

namespace Observability

namespace Probe

open Lib

/-! ### What leaves the probe -/

/-- No clause of `probe_catalog` catches it. -/
def Raised.escapes : Raised → Bool
  | .probeFailure _ | .other => true
  | _ => false

section
variable {A : Type} {urls : Parsing} {config : ProbeConfig} {url : Str}
variable {l l₁ l₂ : Log A} {deadline : Seconds} {started : Rat}

section
variable (urls : Parsing)

/-- The answer brings an exception that is not caught. -/
def escaping : (e : Call A) → Answer e → Bool
  | .monotonic, _ => false
  | .resolve _ _ _, r => alarmed Raised.escapes r
  | .dispatch _, r => r.any Raised.escapes
  | .openSocket _, r => r.any Raised.escapes
  | .connect _ _, r => r.any Raised.escapes
  | .sendRequest _, r => r.any Raised.escapes
  | .getresponse, r =>
      match r with
      | .error e => e.escapes
      | .ok head => !head.isGood && (errorOf urls head).escapes
  | .settimeout _, r => r.any Raised.escapes
  | .read1 _, r => alarmed Raised.escapes r
  | .closeResponse, r => r.any Raised.escapes
  | .closeError, r => r.isSome

/-- The call is one of those between the head and the closing of an answer. -/
def Call.isReading : Call A → Bool
  | .settimeout _ | .read1 _ => true
  | _ => false

def Call.isClosing : Call A → Bool
  | .closeResponse => true
  | _ => false

/-- What the closing of the answer raised takes the place of what its reading raised. -/
def replaced (l : Log A) : Prop := ∃ e, (⟨.closeResponse, some e⟩ : Event (Call A) Answer) ∈ l

/-- No answer brings an exception that leaves the probe. -/
def Contained (l : Log A) : Prop :=
  ∀ x ∈ l, escaping urls x.1 x.2 = true → x.1.isReading = true ∧ replaced l

end

/-! ### The phases -/

theorem tells_monotonic : Tells Raised.escapes (escaping urls) (perform .monotonic : S A Rat) :=
  Tells.perform fun _ => rfl

theorem tells_raising_of {f : Option Raised} {x : Except Raised Unit} (h : Plays (raising f : S A Unit) l x) :
    l = [] ∧ alarmed Raised.escapes x = f.any Raised.escapes := by
  cases f with
  | none =>
      obtain ⟨rfl, rfl⟩ := plays_pure.mp h
      exact ⟨rfl, rfl⟩
  | some e =>
      obtain ⟨rfl, rfl⟩ := plays_throw.mp h
      exact ⟨rfl, rfl⟩

/-- A call whose failure is what its answer says. -/
theorem tells_raising {e : Call A} (f : Answer e → Option Raised)
    (he : ∀ r, escaping urls e r = (f r).any Raised.escapes) :
    Tells Raised.escapes (escaping urls) (perform e >>= fun r => raising (f r) : S A Unit) := by
  refine Tells.perform_bind fun r l x h => ?_
  obtain ⟨rfl, hx⟩ := tells_raising_of h
  rw [hx, he, sounded_nil, Bool.or_false]

/-- Such a call, and what follows. -/
theorem tells_raising_bind {e : Call A} {α : Type} {k : Unit → S A α} (f : Answer e → Option Raised)
    (he : ∀ r, escaping urls e r = (f r).any Raised.escapes) (hk : Tells Raised.escapes (escaping urls) (k ())) :
    Tells Raised.escapes (escaping urls) (perform e >>= fun r => raising (f r) >>= k : S A α) := by
  refine Tells.perform_bind fun r l x h => ?_
  rw [he]
  cases hr : f r with
  | none =>
      rw [hr] at h
      exact hk l x h
  | some e' =>
      rw [hr] at h
      obtain ⟨rfl, rfl⟩ := plays_throw.mp (h : Plays (throw e' : S A α) l x)
      simp

/-- A call whose answer is a result, and what follows. -/
theorem tells_lift_bind {e : Call A} {α β : Type} {k : β → S A α} (f : Answer e → Except Raised β)
    (he : ∀ r, escaping urls e r = alarmed Raised.escapes (f r))
    (hk : ∀ b, Tells Raised.escapes (escaping urls) (k b)) :
    Tells Raised.escapes (escaping urls) (perform e >>= fun r => lift (f r) >>= k : S A α) := by
  refine Tells.perform_bind fun r l x h => ?_
  rw [he]
  rcases plays_lift_bind.mp h with ⟨e', hr, rfl, rfl⟩ | ⟨b, hr, hx⟩
  · simp [hr]
  · rw [hr, alarmed_ok, Bool.false_or]
    exact hk b l x hx

theorem escapes_of_isOsError {e : Raised} (h : e.isOsError = true) : e.escapes = false := by
  cases e with
  | probeFailure message => cases h
  | other => cases h
  | _ => rfl

theorem escapes_wrapped (e : Raised) : (wrapped e).escapes = e.escapes := by
  rw [wrapped]
  split
  · rename_i h
    rw [escapes_of_isOsError h]
    rfl
  · rfl

theorem tells_connectTo (deadline : Seconds) : ∀ (addresses : List A) (last : Option Raised),
    last.any Raised.escapes = false → Tells Raised.escapes (escaping urls) (connectTo deadline addresses last)
  | [], last, hlast => by
      refine Tells.bind tells_monotonic fun now => Tells.ite (fun _ => Tells.throw rfl) fun _ => Tells.throw ?_
      cases last with
      | none => rfl
      | some e => exact hlast
  | address :: addresses, last, hlast => by
      refine Tells.bind tells_monotonic fun now => Tells.ite (fun _ => Tells.throw rfl) fun _ => ?_
      refine tells_raising_bind (e := .openSocket address) id (fun _ => rfl) ?_
      refine Tells.perform_bind fun r l x h => ?_
      cases r with
      | none => exact Tells.pure l x h
      | some e =>
          cases hos : e.isOsError with
          | true =>
              have hnext := escapes_of_isOsError hos
              simp only [hos, if_true] at h
              rw [show escaping urls (Call.connect address (deadline.left now)) (some e) = false from hnext]
              exact tells_connectTo deadline addresses (some e) hnext l x h
          | false =>
              simp only [hos, Bool.false_eq_true, if_false] at h
              obtain ⟨rfl, rfl⟩ := plays_throw.mp h
              simp [escaping]

/-- The connection and the request. -/
theorem tells_connected (url : Str) (deadline : Seconds) (addresses : List A) :
    Tells Raised.escapes (escaping urls) (Proc.mapError wrapped do
      connectTo deadline addresses none
      raising (← perform (.sendRequest url))) :=
  Tells.mapError (Tells.bind (tells_connectTo deadline addresses none rfl) fun _ =>
    tells_raising (e := .sendRequest url) id fun _ => rfl) escapes_wrapped

theorem tells_openerOpen (url : Str) (deadline : Seconds) (addresses : List A) :
    Tells Raised.escapes (escaping urls) (openerOpen urls url deadline addresses) := by
  have hassoc : (openerOpen urls url deadline addresses : S A Head) = (do
      raising (← perform (.dispatch url))
      Proc.mapError wrapped do
        connectTo deadline addresses none
        raising (← perform (.sendRequest url))
      let r ← perform .getresponse
      let head ← lift r
      if head.isGood then return head else throw (errorOf urls head)) := by
    simp only [openerOpen, httpOpen, Proc.bind_assoc]
  rw [hassoc]
  refine tells_raising_bind (e := .dispatch url) id (fun _ => rfl) ?_
  refine Tells.bind (tells_connected url deadline addresses) fun _ => ?_
  refine Tells.perform_bind fun r l x h => ?_
  rcases plays_lift_bind.mp h with ⟨e, rfl, rfl, rfl⟩ | ⟨head, rfl, hx⟩
  · simp [escaping]
  · cases hg : head.isGood with
    | true =>
        simp only [hg, if_true] at hx
        obtain ⟨rfl, rfl⟩ := plays_pure.mp hx
        simp [escaping, hg]
    | false =>
        simp only [hg, Bool.false_eq_true, if_false] at hx
        obtain ⟨rfl, rfl⟩ := plays_throw.mp hx
        simp [escaping, hg]

theorem tells_setResponseDeadline (deadline : Seconds) :
    Tells Raised.escapes (escaping urls) (setResponseDeadline deadline : S A Unit) := by
  refine Tells.bind tells_monotonic fun now => Tells.ite (fun _ => Tells.throw rfl) fun _ => ?_
  exact tells_raising (e := .settimeout (deadline.left now)) id fun _ => rfl

theorem tells_readResponseBody (maxBodyBytes : Nat) (deadline : Seconds) (body : Bytes) :
    Tells Raised.escapes (escaping urls) (readResponseBody maxBodyBytes deadline body : S A Bytes) := by
  induction body using readResponseBody.induct maxBodyBytes with
  | case1 body hle ih =>
      rw [readResponseBody, if_pos hle]
      refine Tells.bind (tells_setResponseDeadline deadline) fun _ => ?_
      refine tells_lift_bind (e := .read1 (min 8192 (maxBodyBytes + 1 - body.length))) id (fun _ => rfl) fun chunk => ?_
      refine Tells.bind tells_monotonic fun now => Tells.ite (fun _ => Tells.throw rfl) fun _ => ?_
      cases chunk with
      | nil => exact Tells.pure
      | cons c cs => exact ih (c :: cs) c cs rfl
  | case2 body hle =>
      rw [readResponseBody, if_neg hle]
      exact Tells.pure

/-! ### Which calls a phase makes -/

theorem only_raising {P : Call A → Prop} {f : Option Raised} : Only P (raising f : S A Unit) := by
  cases f with
  | none => exact Only.pure
  | some e => exact Only.throw

theorem only_connectTo {P : Call A → Prop} (hm : P .monotonic) (hs : ∀ a, P (.openSocket a))
    (hc : ∀ a r, P (.connect a r)) (deadline : Seconds) :
    ∀ (addresses : List A) (last : Option Raised), Only P (connectTo deadline addresses last)
  | [], last => by
      refine Only.bind (Only.perform hm) fun now => Only.ite (fun _ => Only.throw) fun _ => Only.throw
  | address :: addresses, last => by
      refine Only.bind (Only.perform hm) fun now => Only.ite (fun _ => Only.throw) fun _ => ?_
      refine Only.bind (Only.perform (hs address)) fun r => Only.bind only_raising fun _ => ?_
      refine Only.bind (Only.perform (hc address _)) fun r => ?_
      cases r with
      | none => exact Only.pure
      | some e => exact Only.ite (fun _ => only_connectTo hm hs hc deadline addresses _) fun _ => Only.throw

/-- Nothing is read or closed before there is an answer. -/
def Call.isBefore (e : Call A) : Prop := e.isReading = false ∧ e.isClosing = false

theorem only_openerOpen (url : Str) (deadline : Seconds) (addresses : List A) :
    Only Call.isBefore (openerOpen urls url deadline addresses) := by
  refine Only.bind (Only.bind (Only.perform ⟨rfl, rfl⟩) fun r => Only.bind only_raising fun _ => ?_) fun head =>
    Only.ite (fun _ => Only.pure) fun _ => Only.throw
  refine Only.bind (Only.mapError ?_) fun _ => Only.bind (Only.perform ⟨rfl, rfl⟩) fun r => Only.lift
  refine Only.bind (only_connectTo ⟨rfl, rfl⟩ (fun _ => ⟨rfl, rfl⟩) (fun _ _ => ⟨rfl, rfl⟩) deadline addresses _) ?_
  exact fun _ => Only.bind (Only.perform ⟨rfl, rfl⟩) fun r => only_raising

/-- The calls of the reading of a body. -/
def Call.isOfBody (e : Call A) : Prop := e = .monotonic ∨ e.isReading = true

theorem only_readResponseBody (maxBodyBytes : Nat) (deadline : Seconds) (body : Bytes) :
    Only Call.isOfBody (readResponseBody maxBodyBytes deadline body : S A Bytes) := by
  induction body using readResponseBody.induct maxBodyBytes with
  | case1 body hle ih =>
      rw [readResponseBody, if_pos hle]
      refine Only.bind ?_ fun _ => ?_
      · refine Only.bind (Only.perform (.inl rfl)) fun now => Only.ite (fun _ => Only.throw) fun _ => ?_
        exact Only.bind (Only.perform (.inr rfl)) fun r => only_raising
      · refine Only.bind (Only.perform (.inr rfl)) fun r => Only.bind Only.lift fun chunk => ?_
        refine Only.bind (Only.perform (.inl rfl)) fun now => Only.ite (fun _ => Only.throw) fun _ => ?_
        cases chunk with
        | nil => exact Only.pure
        | cons c cs => exact ih (c :: cs) c cs rfl
  | case2 body hle =>
      rw [readResponseBody, if_neg hle]
      exact Only.pure

/-! ### What is contained -/

theorem contained_of_silent (h : sounded (escaping urls) l = false) : Contained urls l := by
  intro x hx hesc
  rw [sounded_eq_false.mp h x hx] at hesc
  cases hesc

theorem contained_iff_silent (h : ¬ replaced l) : Contained urls l ↔ sounded (escaping urls) l = false := by
  refine ⟨fun hc => sounded_eq_false.mpr fun x hx => ?_, contained_of_silent⟩
  refine Bool.eq_false_iff.mpr fun hesc => ?_
  exact h (hc x hx hesc).2

theorem not_replaced (h : ∀ x ∈ l, x.1.isClosing = false) : ¬ replaced l := by
  rintro ⟨e, he⟩
  cases h _ he

theorem replaced_append (h : ¬ replaced l₂) : replaced (l₁ ++ l₂) ↔ replaced l₁ := by
  constructor
  · rintro ⟨e, he⟩
    rcases List.mem_append.mp he with he | he
    · exact ⟨e, he⟩
    · exact absurd ⟨e, he⟩ h
  · rintro ⟨e, he⟩
    exact ⟨e, List.mem_append_left _ he⟩

/-- What comes after the answer was dealt with counts on its own. -/
theorem contained_append (hclose : ¬ replaced l₂) (hread : ∀ x ∈ l₂, x.1.isReading = false) :
    Contained urls (l₁ ++ l₂) ↔ Contained urls l₁ ∧ sounded (escaping urls) l₂ = false := by
  have hr : replaced (l₁ ++ l₂) ↔ replaced l₁ := replaced_append hclose
  constructor
  · intro h
    refine ⟨fun x hx hesc => ?_, sounded_eq_false.mpr fun x hx => Bool.eq_false_iff.mpr fun hesc => ?_⟩
    · obtain ⟨hreading, hrep⟩ := h x (List.mem_append_left _ hx) hesc
      exact ⟨hreading, hr.mp hrep⟩
    · have hreading := (h x (List.mem_append_right _ hx) hesc).1
      rw [hread x hx] at hreading
      cases hreading
  · rintro ⟨h, hsilent⟩ x hx hesc
    rcases List.mem_append.mp hx with hx | hx
    · obtain ⟨hreading, hrep⟩ := h x hx hesc
      exact ⟨hreading, hr.mpr hrep⟩
    · rw [sounded_eq_false.mp hsilent x hx] at hesc
      cases hesc

/-- A reading of the clock does not count. -/
theorem contained_monotonic {now : Rat} : Contained urls (⟨.monotonic, now⟩ :: l : Log A) ↔ Contained urls l := by
  have hr : replaced (⟨.monotonic, now⟩ :: l : Log A) ↔ replaced l := by
    constructor
    · rintro ⟨e, he⟩
      rcases List.mem_cons.mp he with he | he
      · cases he
      · exact ⟨e, he⟩
    · rintro ⟨e, he⟩
      exact ⟨e, List.mem_cons_of_mem _ he⟩
  constructor
  · intro h x hx hesc
    exact (h x (List.mem_cons_of_mem _ hx) hesc).imp_right hr.mp
  · intro h x hx hesc
    rcases List.mem_cons.mp hx with rfl | hx
    · cases hesc
    · exact (h x hx hesc).imp_right hr.mpr

/-- The reading of an answer and its closing. -/
theorem plays_closing {α : Type} {p : S A α} {x : Except Raised α} (h : Plays (closing p) l x) :
    ∃ l₀ y r, l = l₀ ++ [⟨.closeResponse, r⟩] ∧ Plays p l₀ y ∧ x = r.elim y fun e => .error e := by
  rw [closing] at h
  rcases plays_bind.mp h with ⟨e, he, -⟩ | ⟨l₀, l₁, y, rfl, hy, h⟩
  · obtain ⟨a, ha, -⟩ := plays_attempt.mp he
    cases ha
  · obtain ⟨y', hy', hp⟩ := plays_attempt.mp hy
    obtain rfl : y = y' := Except.ok.inj hy'
    obtain ⟨r, l', rfl, hrest⟩ := plays_perform_bind.mp h
    cases r with
    | none =>
        obtain ⟨rfl, rfl⟩ := plays_lift.mp (hrest : Plays (lift _ : S A α) l' x)
        exact ⟨l₀, _, none, rfl, hp, rfl⟩
    | some e =>
        obtain ⟨rfl, rfl⟩ := plays_throw.mp (hrest : Plays (throw e : S A α) l' x)
        exact ⟨l₀, _, some e, rfl, hp, rfl⟩

/-- An answer is dealt with: what leaves is what its closing raised or else what its reading raised. -/
theorem contained_closing {α : Type} {y : Except Raised α} {r : Option Raised}
    (hsilent : sounded (escaping urls) l₁ = false) (hbefore : ∀ x ∈ l₁, x.1.isClosing = false)
    (hbody : ∀ x ∈ l₂, x.1.isOfBody) (hy : alarmed Raised.escapes y = sounded (escaping urls) l₂) :
    Contained urls (l₁ ++ (l₂ ++ [⟨.closeResponse, r⟩])) ↔
      alarmed Raised.escapes (r.elim y fun e => .error e) = false := by
  have hopen : ∀ x ∈ l₂, x.1.isClosing = false := by
    intro x hx
    obtain ⟨e, a⟩ := x
    rcases hbody _ hx with he | he
    · rw [he]
      rfl
    · cases e with
      | closeResponse => cases he
      | _ => rfl
  cases r with
  | none =>
      have hnot : ¬ replaced (l₁ ++ (l₂ ++ [⟨.closeResponse, none⟩])) := by
        rintro ⟨e, he⟩
        rcases List.mem_append.mp he with he | he
        · cases hbefore _ he
        · rcases List.mem_append.mp he with he | he
          · cases hopen _ he
          · cases List.mem_singleton.mp he
      rw [contained_iff_silent hnot, sounded_append, sounded_append, hsilent, ← hy]
      simp [escaping]
  | some e =>
      constructor
      · intro h
        refine Bool.eq_false_iff.mpr fun hesc => ?_
        have hclose := h ⟨.closeResponse, some e⟩ (by simp) (by simpa [escaping] using hesc)
        cases hclose.1
      · intro h x hx hesc
        have hrep : replaced (l₁ ++ (l₂ ++ [⟨.closeResponse, some e⟩])) := ⟨e, by simp⟩
        rcases List.mem_append.mp hx with hx | hx
        · rw [sounded_eq_false.mp hsilent x hx] at hesc
          cases hesc
        · rcases List.mem_append.mp hx with hx | hx
          · obtain ⟨c, a⟩ := x
            rcases hbody _ hx with hc | hc
            · subst hc
              cases hesc
            · exact ⟨hc, hrep⟩
          · obtain rfl := List.mem_singleton.mp hx
            rw [show escaping urls (Call.closeResponse : Call A) (some e) = e.escapes from rfl] at hesc
            rw [show e.escapes = false from h] at hesc
            cases hesc

/-! ### The block of `try` -/

/-- The origin has a port. -/
def HasPort (urls : Parsing) (config : ProbeConfig) : Prop :=
  ∃ parsed port, urls.urlsplit config.origin = some parsed ∧ parsed.port = some (some port)

/-- What an accepted configuration is. -/
theorem validateProbeConfig_ok (h : validateProbeConfig urls config = .ok url) :
    (∃ parsed port host, urls.urlsplit config.origin = some parsed ∧ parsed.port = some port ∧
      parsed.hostname = some host) ∧ 0 < config.maxBodyBytes := by
  simp only [validateProbeConfig, bind_eq_ok, orElse_eq_ok, require_eq_ok, exists_const] at h
  obtain ⟨parsed, hparsed, port, hport, hcheck, -⟩ := h
  simp only [Bool.not_eq_true', Bool.or_eq_false_iff, boundsInvalid, decide_eq_false_iff_not, not_le] at hcheck
  obtain ⟨⟨⟨⟨⟨⟨⟨-, hhost⟩, -⟩, -⟩, -⟩, -⟩, -⟩, ⟨⟨-, hmax⟩, -⟩, -⟩ := hcheck
  refine ⟨⟨parsed, port, ?_⟩, hmax⟩
  cases hname : parsed.hostname with
  | none => simp [hname] at hhost
  | some host => exact ⟨host, hparsed, hport, rfl⟩

theorem plays_openerOpen {addresses : List A} {head : Head}
    (h : Plays (openerOpen urls url deadline addresses) l (.ok head)) :
    ∃ l₀, l = l₀ ++ [⟨.getresponse, .ok head⟩] := by
  rw [openerOpen] at h
  obtain ⟨l₁, l₂, head', rfl, hopen, hgood⟩ := plays_bind_ok.mp h
  have hhead : l₂ = [] ∧ head' = head := by
    cases hg : head'.isGood with
    | true =>
        simp only [hg, if_true] at hgood
        obtain ⟨rfl, hsame⟩ := plays_pure.mp hgood
        exact ⟨rfl, (Except.ok.inj hsame).symm⟩
    | false =>
        simp only [hg, Bool.false_eq_true, if_false] at hgood
        cases (plays_throw.mp hgood).2
  obtain ⟨rfl, rfl⟩ := hhead
  rw [httpOpen] at hopen
  obtain ⟨l₁, l₂, r, rfl, -, hsend⟩ := plays_bind_ok.mp hopen
  obtain ⟨l₂, l₃, _, rfl, -, hconnect⟩ := plays_bind_ok.mp hsend
  obtain ⟨l₃, l₄, _, rfl, -, hget⟩ := plays_bind_ok.mp hconnect
  obtain ⟨r, l₅, rfl, hlift⟩ := plays_perform_bind.mp hget
  obtain ⟨rfl, hr⟩ := plays_lift.mp hlift
  exact ⟨l₁ ++ (l₂ ++ l₃), by rw [← hr]; simp⟩

/-- What the reads of a log brought. -/
def chunkOf : (e : Call A) → Answer e → Bytes
  | .read1 _, .ok chunk => chunk
  | _, _ => []

def readBytes (l : Log A) : Bytes := l.flatMap fun x => chunkOf x.1 x.2

@[simp] theorem readBytes_append : readBytes (l₁ ++ l₂) = readBytes l₁ ++ readBytes l₂ := List.flatMap_append

@[simp] theorem readBytes_nil : readBytes ([] : Log A) = [] := rfl

@[simp] theorem readBytes_cons {x : Event (Call A) Answer} : readBytes (x :: l) = chunkOf x.1 x.2 ++ readBytes l := rfl

theorem readBytes_setResponseDeadline {x : Except Raised Unit} (h : Plays (setResponseDeadline deadline : S A Unit) l x) :
    readBytes l = [] := by
  have honly : Only (fun e : Call A => ∀ r, chunkOf e r = []) (setResponseDeadline deadline : S A Unit) := by
    refine Only.bind (Only.perform fun _ => rfl) fun now => Only.ite (fun _ => Only.throw) fun _ => ?_
    exact Only.bind (Only.perform fun _ => rfl) fun r => only_raising
  exact List.flatMap_eq_nil_iff.mpr fun x hx => honly.plays h x hx x.2

/-- The reading of a body ends in time, and with an empty read if the body is not too long. -/
theorem plays_readResponseBody (maxBodyBytes : Nat) (deadline : Seconds) (body : Bytes) : ∀ {l : Log A} {out : Bytes},
    Plays (readResponseBody maxBodyBytes deadline body) l (.ok out) → out = body ++ readBytes l ∧
      (body.length ≤ maxBodyBytes → ∃ l₀ now, l = l₀ ++ [⟨.monotonic, now⟩] ∧ deadline.passedBy now = false ∧
        (out.length ≤ maxBodyBytes → ∃ l₁ n, l₀ = l₁ ++ [⟨.read1 n, .ok []⟩])) := by
  induction body using readResponseBody.induct maxBodyBytes with
  | case1 body hle ih =>
      intro l out h
      rw [readResponseBody, if_pos hle] at h
      generalize min 8192 (maxBodyBytes + 1 - body.length) = n at h
      obtain ⟨l₁, l₂, _, rfl, hset, hread⟩ := plays_bind_ok.mp h
      have hl₁ := readBytes_setResponseDeadline hset
      obtain ⟨r, l₃, rfl, hchunk⟩ := plays_perform_bind.mp hread
      rcases plays_lift_bind.mp hchunk with ⟨e, -, -, he⟩ | ⟨chunk, rfl, hnow⟩
      · cases he
      obtain ⟨now, l₄, rfl, hrest⟩ := plays_perform_bind.mp hnow
      cases hpassed : deadline.passedBy now with
      | true =>
          simp only [hpassed, if_true] at hrest
          cases (plays_throw.mp hrest).2
      | false =>
          simp only [hpassed, Bool.false_eq_true, if_false] at hrest
          cases chunk with
          | nil =>
              obtain ⟨rfl, hout⟩ := plays_pure.mp hrest
              cases hout
              refine ⟨by simp [hl₁, chunkOf], fun _ => ?_⟩
              exact ⟨l₁ ++ [⟨.read1 n, .ok []⟩], now, by simp, hpassed, fun _ => ⟨l₁, n, rfl⟩⟩
          | cons c cs =>
              obtain ⟨hout, hends⟩ := ih (c :: cs) c cs rfl hrest
              refine ⟨by simpa [hl₁, chunkOf] using hout, fun _ => ?_⟩
              by_cases hlen : (body ++ c :: cs).length ≤ maxBodyBytes
              · obtain ⟨l₀, last, rfl, hlast, hempty⟩ := hends hlen
                refine ⟨l₁ ++ ⟨.read1 n, .ok (c :: cs)⟩ :: ⟨.monotonic, now⟩ :: l₀, last, by simp, hlast, fun hsmall => ?_⟩
                obtain ⟨l₅, m, rfl⟩ := hempty hsmall
                exact ⟨l₁ ++ ⟨.read1 n, .ok (c :: cs)⟩ :: ⟨.monotonic, now⟩ :: l₅, m, by simp⟩
              · rw [readResponseBody, if_neg hlen] at hrest
                obtain ⟨rfl, hsame⟩ := plays_pure.mp hrest
                cases hsame
                exact ⟨l₁ ++ [⟨.read1 n, .ok (c :: cs)⟩], now, by simp, hpassed, fun hsmall => absurd hsmall hlen⟩
  | case2 body hle =>
      intro l out h
      rw [readResponseBody, if_neg hle] at h
      obtain ⟨rfl, hout⟩ := plays_pure.mp h
      cases hout
      exact ⟨by simp, fun h => absurd h hle⟩

/-- The block after the origin has been split: the address, the answer and its body. -/
theorem plays_exchange {parsed : Parts} {port : Option Nat} {host : Str} {x : Except Raised (Head × Bytes)}
    (hparsed : urls.urlsplit config.origin = some parsed) (hport : parsed.port = some port)
    (hhost : parsed.hostname = some host) (h : Plays (exchange urls config url deadline) l x) :
    port = none ∧ l = [] ∧ x = .error originInvalid ∨
      ∃ (p : Nat) (r : Except Raised (List A)) (l' : Log A), port = some p ∧
        l = ⟨.resolve host p deadline, r⟩ :: l' ∧
        Plays (do
          let addresses ← lift r
          let head ← openerOpen urls url deadline addresses
          closing do
            let body ← readResponseBody config.maxBodyBytes.toNat deadline []
            return (head, body) : S A (Head × Bytes)) l' x := by
  rw [exchange, hparsed] at h
  rcases plays_lift_bind.mp h with ⟨e, he, -, -⟩ | ⟨parsed', hsame, h₁⟩
  · cases he
  obtain rfl : parsed = parsed' := Except.ok.inj hsame
  rcases plays_lift_bind.mp h₁ with ⟨e, he, -, -⟩ | ⟨host', hsame, h₂⟩
  · rw [hhost] at he
    cases he
  rw [hhost] at hsame
  obtain rfl : host = host' := Except.ok.inj hsame
  rw [hport] at h₂
  rcases plays_lift_bind.mp h₂ with ⟨e, he, hl, hx⟩ | ⟨p, hp, h₃⟩
  · left
    cases port with
    | none =>
        cases he
        exact ⟨rfl, hl, hx⟩
    | some p => cases he
  · right
    cases port with
    | none => cases hp
    | some p' =>
        obtain rfl : p' = p := Except.ok.inj hp
        obtain ⟨r, l', rfl, h₄⟩ := plays_perform_bind.mp h₃
        exact ⟨p', r, l', rfl, rfl, h₄⟩

/-- A body with its head. -/
theorem plays_body {head : Head} {maxBodyBytes : Nat} {x : Except Raised (Head × Bytes)}
    (h : Plays (do
      let body ← readResponseBody maxBodyBytes deadline []
      return (head, body) : S A (Head × Bytes)) l x) :
    (∀ e ∈ l, e.1.isOfBody) ∧ alarmed Raised.escapes x = sounded (escaping urls) l := by
  have honly : Only Call.isOfBody (do
      let body ← readResponseBody maxBodyBytes deadline []
      return (head, body) : S A (Head × Bytes)) :=
    Only.bind (only_readResponseBody maxBodyBytes deadline []) fun _ => Only.pure
  exact ⟨honly.plays h, Tells.bind (tells_readResponseBody maxBodyBytes deadline []) (fun _ => Tells.pure) l x h⟩

/-- **What leaves the block of `try`.** -/
theorem exchange_contained {x : Except Raised (Head × Bytes)} (haccepted : validateProbeConfig urls config = .ok url)
    (h : Plays (exchange urls config url deadline) l x) :
    HasPort urls config ∧ Contained urls l ↔ alarmed Raised.escapes x = false := by
  obtain ⟨⟨parsed, port, host, hparsed, hport, hhost⟩, -⟩ := validateProbeConfig_ok haccepted
  rcases plays_exchange hparsed hport hhost h with ⟨rfl, rfl, rfl⟩ | ⟨p, r, l', rfl, rfl, hrest⟩
  · refine ⟨?_, fun hx => by cases hx⟩
    rintro ⟨⟨parsed', p, hparsed', hp⟩, -⟩
    obtain rfl : parsed = parsed' := Option.some.inj (hparsed.symm.trans hparsed')
    rw [hport] at hp
    cases hp
  have hhas : HasPort urls config := ⟨parsed, p, hparsed, hport⟩
  rw [and_iff_right hhas]
  rcases plays_lift_bind.mp hrest with ⟨e, rfl, rfl, rfl⟩ | ⟨addresses, rfl, hopen⟩
  · have hnot : ¬ replaced ([⟨.resolve host p deadline, .error e⟩] : Log A) := not_replaced (by simp [Call.isClosing])
    rw [contained_iff_silent hnot]
    simp [escaping]
  rcases plays_bind.mp hopen with ⟨e, he, rfl⟩ | ⟨l₁, l₂, head, rfl, hhead, hclose⟩
  · have hbefore := (only_openerOpen url deadline addresses).plays he
    have hnot : ¬ replaced (⟨.resolve host p deadline, .ok addresses⟩ :: l' : Log A) := by
      refine not_replaced fun x hx => ?_
      rcases List.mem_cons.mp hx with rfl | hx
      · rfl
      · exact (hbefore x hx).2
    rw [contained_iff_silent hnot, sounded_cons, ← tells_openerOpen url deadline addresses _ _ he]
    rfl
  · have hbefore := (only_openerOpen url deadline addresses).plays hhead
    have hsilent := tells_openerOpen url deadline addresses _ _ hhead
    obtain ⟨l₀, y, c, rfl, hbody, rfl⟩ := plays_closing hclose
    obtain ⟨hof, hy⟩ := plays_body hbody
    have hquiet : sounded (escaping urls) (⟨.resolve host p deadline, .ok addresses⟩ :: l₁ : Log A) = false := by
      rw [sounded_cons, ← hsilent]
      rfl
    have hopened : ∀ x ∈ (⟨.resolve host p deadline, .ok addresses⟩ :: l₁ : Log A), x.1.isClosing = false := by
      intro x hx
      rcases List.mem_cons.mp hx with rfl | hx
      · rfl
      · exact (hbefore x hx).2
    exact contained_closing hquiet hopened hof hy

/-- What a block that ended without an exception has read. -/
theorem exchange_read {head : Head} {body : Bytes} (haccepted : validateProbeConfig urls config = .ok url)
    (h : Plays (exchange urls config url deadline) l (.ok (head, body))) :
    ∃ before reading now, l = before ++ ⟨.getresponse, .ok head⟩ ::
        (reading ++ [⟨.monotonic, now⟩, ⟨.closeResponse, none⟩]) ∧
      deadline.passedBy now = false ∧ body = readBytes reading ∧
      (body.length ≤ config.maxBodyBytes.toNat → ∃ earlier n, reading = earlier ++ [⟨.read1 n, .ok []⟩]) := by
  obtain ⟨⟨parsed, port, host, hparsed, hport, hhost⟩, -⟩ := validateProbeConfig_ok haccepted
  rcases plays_exchange hparsed hport hhost h with ⟨-, -, hx⟩ | ⟨p, r, l', rfl, rfl, hrest⟩
  · cases hx
  rcases plays_lift_bind.mp hrest with ⟨e, -, -, hx⟩ | ⟨addresses, rfl, hopen⟩
  · cases hx
  obtain ⟨l₁, l₂, head', rfl, hhead, hclose⟩ := plays_bind_ok.mp hopen
  obtain ⟨l₀, rfl⟩ := plays_openerOpen hhead
  obtain ⟨l₃, y, c, rfl, hbody, hx⟩ := plays_closing hclose
  cases c with
  | some e => cases hx
  | none =>
      obtain rfl : (.ok (head, body)) = y := hx
      obtain ⟨l₄, l₅, out, rfl, hread, hpair⟩ := plays_bind_ok.mp hbody
      obtain ⟨rfl, hsame⟩ := plays_pure.mp hpair
      obtain ⟨rfl, rfl⟩ : head' = head ∧ out = body := by
        have hpair := Except.ok.inj hsame
        exact ⟨(congrArg Prod.fst hpair).symm, (congrArg Prod.snd hpair).symm⟩
      obtain ⟨hout, hends⟩ := plays_readResponseBody _ _ _ hread
      obtain ⟨l₆, now, rfl, hnow, hempty⟩ := hends (Nat.zero_le _)
      refine ⟨⟨.resolve host p deadline, .ok addresses⟩ :: l₀, l₆, now, by simp, hnow, ?_, hempty⟩
      simpa [chunkOf] using hout

/-! ### The result -/

/-- Only the clock is read. -/
def Timed (l : Log A) : Prop := ∀ x ∈ l, x.1 = .monotonic

theorem Timed.silent (h : Timed l) : sounded (escaping urls) l = false := by
  refine sounded_eq_false.mpr fun x hx => ?_
  obtain ⟨e, r⟩ := x
  obtain rfl : e = .monotonic := h _ hx
  rfl

/-- A result that is valid and no success. -/
def Failure (r : Except Raised ProbeResult) : Prop := ∃ result, r = .ok result ∧ result.Valid ∧ result.success = false

theorem failure_of {d : Rat} {code : Nat} {category : Category} (hd : 0 ≤ d) (hcode : code ≤ 599)
    (hc : category ≠ .success ∧ category ≠ .slow) : Failure (.ok ⟨false, d, code, category⟩) := by
  refine ⟨_, rfl, ⟨hd, ⟨Int.natCast_nonneg code, Int.ofNat_le.mpr hcode⟩, ?_⟩, rfl⟩
  exact (decide_eq_false fun h => h.elim hc.1 hc.2).symm

theorem plays_elapsed {x : Except Raised Rat} (h : Plays (elapsed started : S A Rat) l x) :
    Timed l ∧ ∃ d, 0 ≤ d ∧ x = .ok d := by
  obtain ⟨now, l', rfl, hrest⟩ := plays_perform_bind.mp h
  obtain ⟨rfl, rfl⟩ := plays_pure.mp hrest
  refine ⟨fun x hx => ?_, _, le_max_left _ _, rfl⟩
  rw [List.mem_singleton.mp hx]

theorem plays_failed {category : Category} {r : Except Raised ProbeResult}
    (hc : category ≠ .success ∧ category ≠ .slow) (h : Plays (failed started category : S A ProbeResult) l r) :
    Timed l ∧ Failure r := by
  rcases plays_bind.mp h with ⟨e, he, -⟩ | ⟨l₁, l₂, d, rfl, hd, hrest⟩
  · obtain ⟨-, d, -, hok⟩ := plays_elapsed he
    cases hok
  · obtain ⟨htimed, d', hpos, hsame⟩ := plays_elapsed hd
    obtain rfl : d = d' := Except.ok.inj hsame
    obtain ⟨rfl, rfl⟩ := plays_pure.mp hrest
    exact ⟨by simpa using htimed, failure_of hpos (Nat.zero_le _) hc⟩

theorem plays_failedBy {category : Category} {r : Except Raised ProbeResult}
    (hc : category ≠ .success ∧ category ≠ .slow) (h : Plays (failedBy started deadline category : S A ProbeResult) l r) :
    Timed l ∧ Failure r := by
  obtain ⟨now, l', rfl, hrest⟩ := plays_perform_bind.mp h
  have hcat : (if deadline.reachedBy now then Category.timeout else category) ≠ .success ∧
      (if deadline.reachedBy now then Category.timeout else category) ≠ .slow := by
    split
    · exact ⟨by decide, by decide⟩
    · exact hc
  obtain ⟨htimed, hfailure⟩ := plays_failed hcat hrest
  refine ⟨fun x hx => ?_, hfailure⟩
  rcases List.mem_cons.mp hx with rfl | hx
  · rfl
  · exact htimed x hx

/-- How a clause of `except` ends: with a failure, or with an exception. -/
structure Reported (urls : Parsing) (e : Raised) (l : Log A) (r : Except Raised ProbeResult) : Prop where
  aside : ∀ x ∈ l, x.1.isReading = false ∧ x.1.isClosing = false
  ends : Failure r ∨ ∃ e', r = .error e'
  failure : Failure r ↔ e.escapes = false ∧ sounded (escaping urls) l = false

theorem Reported.timed {e : Raised} {r : Except Raised ProbeResult} (h : Timed l ∧ Failure r)
    (he : e.escapes = false) : Reported urls e l r where
  aside x hx := by
    rw [h.1 x hx]
    exact ⟨rfl, rfl⟩
  ends := .inl h.2
  failure := ⟨fun _ => ⟨he, h.1.silent⟩, fun _ => h.2⟩

theorem not_failure_error {e : Raised} : ¬ Failure (.error e) := by
  rintro ⟨result, h, -⟩
  cases h

theorem Reported.escaped {e : Raised} (he : e.escapes = true) : Reported urls e ([] : Log A) (.error e) where
  aside x hx := by cases hx
  ends := .inr ⟨e, rfl⟩
  failure := ⟨fun h => absurd h not_failure_error, fun h => by rw [he] at h; cases h.1⟩

theorem plays_report_httpError {code : Nat} {r : Except Raised ProbeResult}
    (h : Plays (report started deadline (.httpError code) : S A ProbeResult) l r) :
    Reported urls (.httpError code) l r := by
  obtain ⟨c, l', rfl, hclose⟩ := plays_perform_bind.mp h
  cases c with
  | some e =>
      obtain ⟨rfl, rfl⟩ := plays_throw.mp (hclose : Plays (throw e : S A ProbeResult) l' r)
      refine ⟨fun x hx => ?_, .inr ⟨e, rfl⟩, fun h => absurd h not_failure_error, fun h => ?_⟩
      · rw [List.mem_singleton.mp hx]
        exact ⟨rfl, rfl⟩
      · cases h.2
  | none =>
      rcases plays_bind.mp hclose with ⟨e, he, -⟩ | ⟨l₀, l'', u, rfl, hnone, hafter⟩
      · cases (plays_pure.mp (he : Plays (pure () : S A Unit) l' _)).2
      obtain ⟨rfl, -⟩ := plays_pure.mp (hnone : Plays (pure () : S A Unit) l₀ _)
      rcases plays_bind.mp hafter with ⟨e, he, -⟩ | ⟨l₁, l₂, d, rfl, hd, hrest⟩
      · obtain ⟨-, d, -, hok⟩ := plays_elapsed he
        cases hok
      obtain ⟨htimed, d', hpos, hsame⟩ := plays_elapsed hd
      obtain rfl : d = d' := Except.ok.inj hsame
      obtain ⟨now, l₃, rfl, hresult⟩ := plays_perform_bind.mp hrest
      have hfailure : l₃ = [] ∧ Failure r := by
        cases hreached : deadline.reachedBy now with
        | true =>
            simp only [hreached, if_true] at hresult
            obtain ⟨rfl, rfl⟩ := plays_pure.mp hresult
            exact ⟨rfl, failure_of hpos (Nat.zero_le _) ⟨by decide, by decide⟩⟩
        | false =>
            simp only [hreached, Bool.false_eq_true, if_false] at hresult
            by_cases hcode : 100 ≤ code ∧ code ≤ 599
            · rw [if_neg (not_not_intro hcode)] at hresult
              obtain ⟨rfl, rfl⟩ := plays_pure.mp hresult
              exact ⟨rfl, failure_of hpos hcode.2 ⟨by decide, by decide⟩⟩
            · rw [if_pos hcode] at hresult
              obtain ⟨rfl, rfl⟩ := plays_pure.mp hresult
              exact ⟨rfl, failure_of hpos (Nat.zero_le _) ⟨by decide, by decide⟩⟩
      obtain ⟨rfl, hfailure⟩ := hfailure
      have hlog : ∀ x ∈ (⟨.closeError, none⟩ :: ([] ++ (l₁ ++ [⟨.monotonic, now⟩])) : Log A),
          x = ⟨.closeError, none⟩ ∨ x.1 = .monotonic := by
        intro x hx
        rcases List.mem_cons.mp hx with rfl | hx
        · exact .inl rfl
        · rw [List.nil_append] at hx
          rcases List.mem_append.mp hx with hx | hx
          · exact .inr (htimed x hx)
          · exact .inr (by rw [List.mem_singleton.mp hx])
      refine ⟨fun x hx => ?_, .inl hfailure, fun _ => ⟨rfl, sounded_eq_false.mpr fun x hx => ?_⟩, fun _ => hfailure⟩
      · rcases hlog x hx with rfl | hx
        · exact ⟨rfl, rfl⟩
        · rw [hx]
          exact ⟨rfl, rfl⟩
      · obtain ⟨e, a⟩ := x
        rcases hlog _ hx with hx | hx
        · cases hx
          rfl
        · obtain rfl : e = .monotonic := hx
          rfl

/-- The clauses of `except` make a result of whatever does not escape. -/
theorem plays_report {e : Raised} {r : Except Raised ProbeResult}
    (h : Plays (report started deadline e : S A ProbeResult) l r) : Reported urls e l r := by
  cases e with
  | httpError code => exact plays_report_httpError h
  | timeoutError => exact Reported.timed (plays_failed ⟨by decide, by decide⟩ h) rfl
  | urlError timedOut =>
      cases timedOut with
      | true => exact Reported.timed (plays_failed ⟨by decide, by decide⟩ h) rfl
      | false => exact Reported.timed (plays_failedBy ⟨by decide, by decide⟩ h) rfl
  | remoteDisconnected => exact Reported.timed (plays_failedBy ⟨by decide, by decide⟩ h) rfl
  | httpException => exact Reported.timed (plays_failedBy ⟨by decide, by decide⟩ h) rfl
  | osError => exact Reported.timed (plays_failedBy ⟨by decide, by decide⟩ h) rfl
  | probeFailure message =>
      obtain ⟨rfl, rfl⟩ := plays_throw.mp h
      exact Reported.escaped rfl
  | other =>
      obtain ⟨rfl, rfl⟩ := plays_throw.mp h
      exact Reported.escaped rfl

/-- What follows the block is a valid result, and a success only for a configuration of the catalog. -/
theorem conclude_valid (config : ProbeConfig) {d : Rat} (hd : 0 ≤ d) (head : Head) (body : Bytes) :
    (conclude config d head body).Valid ∧ ((conclude config d head body).success = true →
      head.status = 200 ∧ isJsonType (contentType head) = true ∧ body.length ≤ config.maxBodyBytes.toNat ∧
        ∃ kvs, CatalogConfig body kvs) := by
  have hfailure : ∀ {code : Nat} {category : Category}, code ≤ 599 → category ≠ .success ∧ category ≠ .slow →
      (⟨false, d, code, category⟩ : ProbeResult).Valid := by
    intro code category hcode hc
    obtain ⟨result, hsame, hvalid, -⟩ := failure_of hd hcode hc
    obtain rfl := Except.ok.inj hsame
    exact hvalid
  rw [conclude]
  by_cases hrange : 100 ≤ head.status ∧ head.status ≤ 599
  · rw [if_neg (not_not_intro hrange)]
    split
    · exact ⟨hfailure hrange.2 ⟨by decide, by decide⟩, fun h => by cases h⟩
    rename_i hstatus
    split
    · exact ⟨hfailure hrange.2 ⟨by decide, by decide⟩, fun h => by cases h⟩
    rename_i hjson
    split
    · exact ⟨hfailure hrange.2 ⟨by decide, by decide⟩, fun h => by cases h⟩
    rename_i hlen
    cases hdecode : decodeCatalogConfig body with
    | error e => exact ⟨hfailure hrange.2 ⟨by decide, by decide⟩, fun h => by cases h⟩
    | ok kvs =>
        refine ⟨⟨hd, ⟨Int.natCast_nonneg _, Int.ofNat_le.mpr hrange.2⟩, ?_⟩, fun _ => ?_⟩
        · cases config.slowSeconds.passedBy d with
          | true => rfl
          | false => rfl
        · exact ⟨not_not.mp hstatus, by simpa using hjson, not_lt.mp hlen, kvs, decodeCatalogConfig_ok hdecode⟩
  · rw [if_pos hrange]
    exact ⟨hfailure (Nat.zero_le _) ⟨by decide, by decide⟩, fun h => by cases h⟩

/-- A configuration of the catalog came with status 200 and was read to its end, in time. -/
def ReadCatalog (config : ProbeConfig) (l : Log A) : Prop :=
  ∃ started before head reading now after kvs,
    l = ⟨.monotonic, started⟩ :: (before ++ ⟨.getresponse, .ok head⟩ :: (reading ++ ⟨.monotonic, now⟩ :: after)) ∧
    (∀ x ∈ after, x.1.isReading = false) ∧ (config.timeoutSeconds.after started).passedBy now = false ∧
    (∃ earlier n, reading = earlier ++ [⟨.read1 n, .ok []⟩]) ∧
    head.status = 200 ∧ isJsonType (contentType head) = true ∧
    (readBytes reading).length ≤ config.maxBodyBytes.toNat ∧ CatalogConfig (readBytes reading) kvs

/-- The probe reports: its result is rendered, and is a success only for what the catalog should send. -/
def Reports (floatRepr : Rat → Str) (config : ProbeConfig) (l : Log A) (r : Except Raised ProbeResult) : Prop :=
  ∃ result, r = .ok result ∧ (∃ body, renderMetrics floatRepr result = .ok body) ∧
    (result.success = true → ReadCatalog config l)

/-- **The probe always reports, unless its origin has no port or an exception that it does not catch comes
with an answer**, such as a redirection whose location cannot be parsed. -/
theorem probe_reports_iff {floatRepr : Rat → Str} {r : Except Raised ProbeResult} (hfloat : FloatTexts floatRepr)
    (haccepted : validateProbeConfig urls config = .ok url) (h : Plays (probeCatalog urls config : S A ProbeResult) l r) :
    Reports floatRepr config l r ↔ HasPort urls config ∧ Contained urls l := by
  rw [probeCatalog] at h
  rcases plays_lift_bind.mp h with ⟨e, he, -⟩ | ⟨url', hsame, hstart⟩
  · rw [haccepted] at he
    cases he
  obtain rfl : url = url' := Except.ok.inj (haccepted.symm.trans hsame)
  obtain ⟨started, l', rfl, htry⟩ := plays_perform_bind.mp hstart
  rcases plays_bind.mp htry with ⟨e, he, -⟩ | ⟨l₁, l₂, y, rfl, hy, hafter⟩
  · obtain ⟨a, ha, -⟩ := plays_attempt.mp he
    cases ha
  obtain ⟨x, hx, hexchange⟩ := plays_attempt.mp hy
  obtain rfl : y = x := Except.ok.inj hx
  have hblock := exchange_contained haccepted hexchange
  cases y with
  | error e =>
      have hreport : Reported urls e l₂ r := plays_report hafter
      have hnot : ¬ replaced l₂ := not_replaced fun x hx => (hreport.aside x hx).2
      rw [contained_monotonic, contained_append hnot fun x hx => (hreport.aside x hx).1, ← and_assoc, hblock,
        alarmed_error, ← hreport.failure]
      constructor
      · rintro ⟨result, rfl, -⟩
        exact hreport.ends.resolve_right fun ⟨e', he'⟩ => by cases he'
      · rintro ⟨result, rfl, hvalid, hsuccess⟩
        exact ⟨result, rfl, renderMetrics_ok hfloat hvalid, fun hs => by rw [hsuccess] at hs; cases hs⟩
  | ok pair =>
      obtain ⟨head, body⟩ := pair
      rcases plays_bind.mp hafter with ⟨e, he, -⟩ | ⟨l₃, l₄, d, rfl, hd, hresult⟩
      · obtain ⟨-, d, -, hok⟩ := plays_elapsed he
        cases hok
      obtain ⟨htimed, d', hpos, hsame⟩ := plays_elapsed hd
      obtain rfl : d = d' := Except.ok.inj hsame
      obtain ⟨rfl, rfl⟩ := plays_pure.mp hresult
      rw [List.append_nil]
      have haside : ∀ x ∈ l₃, x.1.isReading = false ∧ x.1.isClosing = false := by
        intro x hx
        rw [htimed x hx]
        exact ⟨rfl, rfl⟩
      have hcontained : HasPort urls config ∧ Contained urls (⟨.monotonic, started⟩ :: (l₁ ++ l₃) : Log A) := by
        rw [contained_monotonic, contained_append (not_replaced fun x hx => (haside x hx).2) fun x hx => (haside x hx).1,
          ← and_assoc]
        exact ⟨hblock.mpr rfl, htimed.silent⟩
      obtain ⟨hvalid, hsuccess⟩ := conclude_valid config hpos head body
      refine ⟨fun _ => hcontained, fun _ => ⟨_, rfl, renderMetrics_ok hfloat hvalid, fun hs => ?_⟩⟩
      obtain ⟨hstatus, hjson, hlen, kvs, hcatalog⟩ := hsuccess hs
      obtain ⟨before, reading, now, rfl, hnow, rfl, hempty⟩ := exchange_read haccepted hexchange
      refine ⟨started, before, head, reading, now, ⟨.closeResponse, none⟩ :: l₃, kvs, by simp, ?_, hnow, hempty hlen,
        hstatus, hjson, hlen, hcatalog⟩
      intro x hx
      rcases List.mem_cons.mp hx with rfl | hx
      · rfl
      · exact (haside x hx).1

end

/-! ### The catalog of the lab -/

/-- What `urllib.parse` makes of the fixed origin and of two locations. -/
def labParsing : Parsing where
  urlsplit origin :=
    if origin = lit "http://iceberg-rest:8181" then
      some ⟨lit "http", some (lit "iceberg-rest"), some (some 8181), none, none, [], [], []⟩
    else if origin = lit "http://iceberg-rest" then
      some ⟨lit "http", some (lit "iceberg-rest"), some none, none, none, [], [], []⟩
    else none
  takesLocation location := location != lit "http://["

def labConfig : ProbeConfig := ⟨lit "http://iceberg-rest:8181", .finite 5, 65536, .finite 1⟩

/-- A catalog that answers at once, with a redirection to this location. -/
def redirecting (location : String) (_ : Unit) : (e : Call Unit) → Answer e × Unit
  | .monotonic => ((0 : Rat), ())
  | .resolve _ _ _ => (.ok [()], ())
  | .dispatch _ => (none, ())
  | .openSocket _ => (none, ())
  | .connect _ _ => (none, ())
  | .sendRequest _ => (none, ())
  | .getresponse => (.ok ⟨302, [(lit "Location", lit location)]⟩, ())
  | .settimeout _ => (none, ())
  | .read1 _ => (.ok [], ())
  | .closeResponse => (none, ())
  | .closeError => (none, ())

/-- `repr` of the duration of such a probe. -/
def zeroText (_ : Rat) : Str := lit "0.0"

theorem floatTexts_zero : FloatTexts zeroText where
  ascii _ := by rw [zeroText]; decide
  short _ := by rw [zeroText]; decide

theorem labConfig_accepted :
    validateProbeConfig labParsing labConfig = .ok (lit "http://iceberg-rest:8181/v1/config") := by decide

/-- A redirection that is well formed is reported. -/
theorem probe_reports_redirect : ∃ l r, Reports zeroText labConfig l r ∧
    Plays (probeCatalog labParsing labConfig : S Unit ProbeResult) l r :=
  ⟨_, _, (probe_reports_iff floatTexts_zero labConfig_accepted
    (record_plays (redirecting "/elsewhere") (probeCatalog labParsing labConfig : S Unit ProbeResult) ())).mpr
      ⟨⟨_, 8181, rfl, rfl⟩, contained_of_silent (by decide +kernel)⟩,
    record_plays (redirecting "/elsewhere") (probeCatalog labParsing labConfig : S Unit ProbeResult) ()⟩

/-- A redirection to `http://[` is not, and neither is anything when the origin has no port. -/
theorem probe_raises :
    (∃ l : Log Unit, Plays (probeCatalog labParsing labConfig) l (.error .other) ∧
      ¬ Reports zeroText labConfig l (.error .other)) ∧
    ∃ l : Log Unit, Plays (probeCatalog labParsing { labConfig with origin := lit "http://iceberg-rest" }) l
        (.error originInvalid) ∧
      ¬ Reports zeroText { labConfig with origin := lit "http://iceberg-rest" } l (.error originInvalid) := by
  have hraises : ∀ {config : ProbeConfig} {e : Raised},
      (record (redirecting "http://[") (probeCatalog labParsing config : S Unit ProbeResult) ()).2 = .error e →
      ∃ l : Log Unit, Plays (probeCatalog labParsing config) l (.error e) ∧
        ¬ Reports zeroText config l (.error e) := by
    intro config e h
    refine ⟨_, h ▸ record_plays (redirecting "http://[") (probeCatalog labParsing config : S Unit ProbeResult) (), ?_⟩
    rintro ⟨result, hr, -⟩
    cases hr
  exact ⟨hraises (by decide +kernel), hraises (by decide +kernel)⟩

end Probe

end Observability
