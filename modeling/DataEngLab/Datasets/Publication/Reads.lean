/-
What has been read, and what has been captured.

A log of calls says which bytes came from the body of each location, and what the temporary
file held at each point: `bytesRead` and `captured`.  A part of the program that touches one
location reads some bytes of it and appends some to the file, and the parts compose:
`Moves` says so, one lemma for each function that reads.
-/
import DataEngLab.Datasets.Publication.Resolve

namespace Publication

open Lib Registry
open Datasets (Location ControlSnapshot)

/-! ### The record -/

/-- The bytes that an event brought from the body of a location. -/
def eventBytes (loc : Location) : Event Call Answer → Bytes
  | ⟨.read l _, .bytes b⟩ => if l = loc then b else []
  | _ => []

/-- The bytes read from the body of a location. -/
def bytesRead (loc : Location) (l : Log) : Bytes := l.flatMap (eventBytes loc)

/-- What the temporary file holds after an event. -/
def captureStep (content : Bytes) : Event Call Answer → Bytes
  | ⟨.openCapture, _⟩ => []
  | ⟨.write chunk, _⟩ => content ++ chunk
  | _ => content

/-- What the temporary file holds. -/
def captured (l : Log) : Bytes := l.foldl captureStep []

/-- A part of a log that reads `read` from a location, and nothing elsewhere, and appends `written` to the
temporary file. -/
structure Moves (loc : Location) (l : Log) (read written : Bytes) : Prop where
  here : bytesRead loc l = read
  elsewhere : ∀ loc', loc' ≠ loc → bytesRead loc' l = []
  file : ∀ content, l.foldl captureStep content = content ++ written

section
variable {loc : Location} {l₁ l₂ : Log} {r₁ r₂ w₁ w₂ : Bytes}

@[simp] theorem bytesRead_append : bytesRead loc (l₁ ++ l₂) = bytesRead loc l₁ ++ bytesRead loc l₂ := by
  simp [bytesRead]

theorem Moves.append (h₁ : Moves loc l₁ r₁ w₁) (h₂ : Moves loc l₂ r₂ w₂) :
    Moves loc (l₁ ++ l₂) (r₁ ++ r₂) (w₁ ++ w₂) where
  here := by rw [bytesRead_append, h₁.here, h₂.here]
  elsewhere := fun loc' h => by rw [bytesRead_append, h₁.elsewhere loc' h, h₂.elsewhere loc' h, List.append_nil]
  file := fun content => by rw [List.foldl_append, h₁.file, h₂.file, List.append_assoc]

theorem Moves.nil : Moves loc [] [] [] :=
  ⟨rfl, fun _ _ => rfl, fun content => by simp⟩

/-- A silent part before. -/
theorem Moves.after (h₁ : Moves loc l₁ [] []) (h₂ : Moves loc l₂ r₂ w₂) : Moves loc (l₁ ++ l₂) r₂ w₂ := by
  simpa using h₁.append h₂

/-- A silent part behind. -/
theorem Moves.before (h₁ : Moves loc l₁ r₁ w₁) (h₂ : Moves loc l₂ [] []) : Moves loc (l₁ ++ l₂) r₁ w₁ := by
  simpa using h₁.append h₂

theorem Moves.read (loc : Location) (size : Int) (b : Bytes) :
    Moves loc [⟨.read loc size, ReadReply.bytes b⟩] b [] where
  here := by simp [bytesRead, eventBytes]
  elsewhere := fun loc' h => by simp [bytesRead, eventBytes, Ne.symm h]
  file := fun content => by simp [captureStep]

theorem Moves.write (loc : Location) (chunk : Bytes) (r : WriteReply) :
    Moves loc [⟨.write chunk, r⟩] [] chunk where
  here := rfl
  elsewhere := fun _ _ => rfl
  file := fun _ => rfl

end

/-! ### Calls that move no bytes -/

/-- A call that neither reads a body nor touches what the temporary file holds. -/
def Quiet : Call → Prop
  | .read _ _ => False
  | .write _ => False
  | .openCapture => False
  | _ => True

theorem quiet_moves (loc : Location) : ∀ {l : Log}, (∀ x ∈ l, Quiet x.1) → Moves loc l [] [] := by
  intro l
  induction l with
  | nil => exact fun _ => .nil
  | cons x l ih =>
      intro h
      have hx := h x (by simp)
      have hl := ih fun y hy => h y (List.mem_cons_of_mem x hy)
      have hone : Moves loc [x] [] [] := by
        obtain ⟨e, r⟩ := x
        cases e with
        | read l' size => exact absurd hx (by simp [Quiet])
        | write chunk => exact absurd hx (by simp [Quiet])
        | openCapture => exact absurd hx (by simp [Quiet])
        | _ => exact ⟨rfl, fun _ _ => rfl, fun content => by simp [captureStep]⟩
      exact hone.append hl

/-- What only makes quiet calls moves nothing, whatever it ends with. -/
theorem Quiet.moves {α : Type} {p : S α} (hp : Only Quiet p) {l : Log} {r : Except Exn α} (h : Plays p l r)
    (loc : Location) : Moves loc l [] [] :=
  quiet_moves loc (hp.plays h)

theorem getObject_quiet (loc : Location) : Only Quiet (getObject loc) := by
  refine .bind (.perform trivial) fun reply => ?_
  cases reply with
  | ok r => exact .pure
  | malformed => exact .throw
  | raised f => exact .throw

theorem responseServerDate_quiet (date : Datasets.DateHeader) : Only Quiet (responseServerDate date) := by
  cases date with
  | missing => exact .throw
  | invalid => exact .throw
  | date d => exact .bind (.perform trivial) fun now => .ite (fun _ => .throw) fun _ => .pure

theorem closeBody_quiet (loc : Location) (closable : Bool) : Only Quiet (closeBody loc closable) :=
  .ite (fun _ => .perform trivial) fun _ => .pure

theorem raising_quiet (f : Option Datasets.Failure) : Only Quiet (raising f) := by
  cases f with
  | none => exact .pure
  | some f => exact .throw

/-! ### Reading a control object -/

/-- What the rounds of `_read_bounded` return is what they read. -/
theorem readLoop_moves {loc : Location} {limit : Nat} : ∀ {rounds : Nat} {body b : Bytes} {l : Log},
    Plays (readLoop loc limit rounds body) l (.ok b) → ∃ r, b = body ++ r ∧ Moves loc l r [] := by
  intro rounds
  induction rounds with
  | zero =>
      intro body b l h
      obtain ⟨rfl, hb⟩ := plays_pure.mp h
      exact ⟨[], by rw [Except.ok.inj hb, List.append_nil], .nil⟩
  | succ rounds ih =>
      intro body b l h
      unfold readLoop at h
      split at h
      · obtain ⟨rfl, hb⟩ := plays_pure.mp h
        exact ⟨[], by rw [Except.ok.inj hb, List.append_nil], .nil⟩
      · obtain ⟨reply, rest, rfl, hrest⟩ := plays_perform_bind.mp h
        clear h
        cases reply with
        | raised f => exact absurd (plays_throw.mp hrest).2 (by simp)
        | nonBytes => exact absurd (plays_throw.mp hrest).2 (by simp)
        | bytes chunk =>
            dsimp only at hrest
            split at hrest
            · rename_i hempty
              subst hempty
              obtain ⟨rfl, hb⟩ := plays_pure.mp hrest
              exact ⟨[], by rw [Except.ok.inj hb, List.append_nil], .read _ _ _⟩
            · obtain ⟨r, rfl, hr⟩ := ih hrest
              exact ⟨chunk ++ r, by rw [List.append_assoc], (Moves.read _ _ _).append hr⟩

/-- More rounds than the limit has room for change nothing. -/
theorem readLoop_rounds (loc : Location) (limit more : Nat) : ∀ {rounds : Nat} {body : Bytes},
    limit < rounds + body.length → readLoop loc limit (rounds + more) body = readLoop loc limit rounds body := by
  intro rounds
  induction rounds with
  | zero =>
      intro body h
      rw [Nat.zero_add] at h ⊢
      cases more with
      | zero => rfl
      | succ more => simp [readLoop, h]
  | succ rounds ih =>
      intro body h
      rw [Nat.succ_add]
      unfold readLoop
      split
      · rfl
      · congr 1
        funext reply
        cases reply with
        | bytes chunk =>
            simp only
            split
            · rfl
            · rename_i hne
              have hpos := List.length_pos_iff.mpr hne
              exact ih (by rw [List.length_append]; omega)
        | nonBytes => rfl
        | raised f => rfl

theorem readBounded_moves {loc : Location} {readable : Bool} {b : Bytes} {l : Log}
    (h : Plays (readBounded loc readable) l (.ok b)) : Moves loc l b [] := by
  unfold readBounded at h
  split at h
  · obtain ⟨l₁, l₂, body, rfl, hloop, h⟩ := plays_bind_ok.mp h
    obtain ⟨r, hbody, hmoves⟩ := readLoop_moves hloop
    rw [List.nil_append] at hbody
    subst hbody
    split at h
    · exact absurd (plays_throw.mp h).2 (by simp)
    · obtain ⟨rfl, hb⟩ := plays_pure.mp h
      rw [Except.ok.inj hb, List.append_nil]
      exact hmoves
  · exact absurd (plays_throw.mp h).2 (by simp)

/-- Closing a body moves nothing, and what is returned is what was computed. -/
theorem ownedBody_ok {α : Type} {close : S (Option Datasets.Failure)} {x : S α} {a : α} {l : Log}
    (hclose : Only Quiet close) (h : Plays (ownedBody close x) l (.ok a)) :
    ∃ l₁ l₂, l = l₁ ++ l₂ ∧ Plays x l₁ (.ok a) ∧ ∀ loc, Moves loc l₂ [] [] := by
  obtain ⟨l₁, l₂, result, rfl, hx, h⟩ := plays_bind_ok.mp h
  obtain ⟨r, hr, hx⟩ := plays_attempt.mp hx
  obtain rfl := Except.ok.inj hr
  cases result with
  | error e =>
      obtain ⟨l₃, l₄, u, rfl, -, h⟩ := plays_bind_ok.mp h
      exact absurd (plays_throw.mp h).2 (by simp)
  | ok b =>
      obtain ⟨l₃, l₄, f, rfl, hf, h⟩ := plays_bind_ok.mp h
      cases f with
      | none =>
          obtain ⟨rfl, hb⟩ := plays_pure.mp h
          obtain rfl := Except.ok.inj hb
          exact ⟨l₁, _, rfl, hx, fun loc => .before (Quiet.moves hclose hf loc) .nil⟩
      | some f => exact absurd (plays_throw.mp h).2 (by simp)

/-- The bytes of a control object are what was read of it. -/
theorem readControlObject_moves {loc : Location} {snapshot : ControlSnapshot} {l : Log}
    (h : Plays (readControlObject loc) l (.ok snapshot)) : Moves loc l snapshot.body [] := by
  obtain ⟨l₁, l₂, r, rfl, hget, h⟩ := plays_bind_ok.mp h
  refine (Quiet.moves (getObject_quiet loc) hget loc).after ?_
  split at h
  · exact absurd (plays_throw.mp h).2 (by simp)
  · rename_i readable closable _
    obtain ⟨l₃, l₄, rfl, h, hclose⟩ := ownedBody_ok (closeBody_quiet loc closable) h
    refine .before ?_ (hclose loc)
    obtain ⟨l₅, l₆, date, rfl, hdate, hchecks⟩ := plays_bind_ok.mp h
    obtain ⟨etag, -, hread⟩ := (plays_lift_bind.mp hchecks).resolve_left (by simp)
    obtain ⟨l₇, l₈, body, rfl, hbody, hreturn⟩ := plays_bind_ok.mp hread
    obtain ⟨rfl, hs⟩ := plays_pure.mp hreturn
    obtain rfl := Except.ok.inj hs
    exact (Quiet.moves (responseServerDate_quiet _) hdate loc).after
      (.before (readBounded_moves hbody) .nil)

/-! ### Comparing a stream -/

theorem capturingRead_moves {loc : Location} {size : Int} {chunk : Bytes} {l : Log}
    (h : Plays (capturingRead loc size) l (.ok chunk)) : Moves loc l chunk chunk := by
  obtain ⟨reply, rest, rfl, hread⟩ := plays_perform_bind.mp h
  clear h
  cases reply with
  | raised f => exact absurd (plays_throw.mp hread).2 (by simp)
  | nonBytes => exact absurd (plays_throw.mp hread).2 (by simp)
  | bytes b =>
      obtain ⟨written, rest, rfl, hwrite⟩ := plays_perform_bind.mp hread
      clear hread
      cases written with
      | raised f => exact absurd (plays_throw.mp hwrite).2 (by simp)
      | nonInt => exact absurd (plays_throw.mp hwrite).2 (by simp)
      | count n =>
          dsimp only at hwrite
          split at hwrite
          · obtain ⟨rfl, hb⟩ := plays_pure.mp hwrite
            obtain rfl := Except.ok.inj hb
            simpa using (Moves.read loc size chunk).append (Moves.write loc chunk (.count n))
          · exact absurd (plays_throw.mp hwrite).2 (by simp)

/-- What the rounds of `verify_stream` end with is what they read, and captured. -/
theorem verifyLoop_moves {loc : Location} {expectedSize : Int} {tooLong : Exn} :
    ∀ {rounds : Nat} {received b : Bytes} {l : Log},
      Plays (verifyLoop (capturingRead loc) expectedSize tooLong rounds received) l (.ok b) →
        ∃ r, b = received ++ r ∧ Moves loc l r r := by
  intro rounds
  induction rounds with
  | zero => exact fun h => absurd (plays_throw.mp h).2 (by simp)
  | succ rounds ih =>
      intro received b l h
      obtain ⟨l₁, l₂, chunk, rfl, hread, h⟩ := plays_bind_ok.mp h
      have hchunk := capturingRead_moves hread
      split at h
      · rename_i hempty
        subst hempty
        obtain ⟨rfl, hb⟩ := plays_pure.mp h
        exact ⟨[], by rw [Except.ok.inj hb, List.append_nil], .before hchunk .nil⟩
      · split at h
        · exact absurd (plays_throw.mp h).2 (by simp)
        · obtain ⟨r, rfl, hr⟩ := ih h
          exact ⟨chunk ++ r, by rw [List.append_assoc], hchunk.append hr⟩

/-- More rounds than the expected size has room for change nothing. -/
theorem verifyLoop_rounds (read : Int → S Bytes) (expectedSize : Int) (tooLong : Exn) (more : Nat) :
    ∀ {rounds : Nat} {received : Bytes}, expectedSize < rounds + received.length →
      (received.length : Int) ≤ expectedSize →
        verifyLoop read expectedSize tooLong (rounds + more) received =
          verifyLoop read expectedSize tooLong rounds received := by
  intro rounds
  induction rounds with
  | zero => intro received h hle; omega
  | succ rounds ih =>
      intro received h hle
      rw [Nat.succ_add]
      unfold verifyLoop
      congr 1
      funext chunk
      split
      · rfl
      · rename_i hne
        split
        · rfl
        · rename_i hfits
          have hpos := List.length_pos_iff.mpr hne
          refine ih ?_ (by omega)
          rw [List.length_append] at hfits ⊢
          omega

/-- **What passes has exactly the size and the digest that were expected**, and the file has captured it. -/
theorem verifyStream_moves {loc : Location} {expectedSize : Int} {expectedSha256 : Str} {mismatch : Str → Exn}
    {result : Nat × Str} {l : Log}
    (h : Plays (verifyStream (capturingRead loc) expectedSize expectedSha256 mismatch) l (.ok result)) :
    ∃ b, Moves loc l b b ∧ (b.length : Int) = expectedSize ∧ sha256 b = expectedSha256 := by
  obtain ⟨l₁, l₂, received, rfl, hloop, h⟩ := plays_bind_ok.mp h
  obtain ⟨r, hr, hmoves⟩ := verifyLoop_moves hloop
  rw [List.nil_append] at hr
  subst hr
  split at h
  · exact absurd (plays_throw.mp h).2 (by simp)
  · rename_i hsize
    split at h
    · exact absurd (plays_throw.mp h).2 (by simp)
    · rename_i hdigest
      obtain ⟨rfl, -⟩ := plays_pure.mp h
      exact ⟨received, .before hmoves .nil, not_not.mp hsize, not_not.mp hdigest⟩

theorem streamVerifyObject_moves {loc : Location} {expectedSize : Int} {expectedSha256 : Str}
    {mismatch : Str → Exn} {result : Nat × Str} {l : Log}
    (h : Plays (streamVerifyObject loc expectedSize expectedSha256 mismatch) l (.ok result)) :
    ∃ b, Moves loc l b b ∧ (b.length : Int) = expectedSize ∧ sha256 b = expectedSha256 := by
  obtain ⟨l₁, l₂, r, rfl, hget, h⟩ := plays_bind_ok.mp h
  have hbefore := Quiet.moves (getObject_quiet loc) hget loc
  split at h
  · exact absurd (plays_throw.mp h).2 (by simp)
  · split at h
    · obtain ⟨l₃, l₄, rfl, h, hclose⟩ := ownedBody_ok (closeBody_quiet loc true) h
      obtain ⟨l₅, l₆, date, rfl, hdate, hchecks⟩ := plays_bind_ok.mp h
      obtain ⟨-, -, hmetadata⟩ := (plays_lift_bind.mp hchecks).resolve_left (by simp)
      obtain ⟨-, -, hstream⟩ := (plays_lift_bind.mp hmetadata).resolve_left (by simp)
      obtain ⟨b, hmoves, hsize, hdigest⟩ := verifyStream_moves hstream
      exact ⟨b, hbefore.after (.before ((Quiet.moves (responseServerDate_quiet _) hdate loc).after hmoves)
        (hclose loc)), hsize, hdigest⟩
    · obtain ⟨l₃, l₄, u, rfl, -, h⟩ := plays_bind_ok.mp h
      exact absurd (plays_throw.mp h).2 (by simp)

end Publication
