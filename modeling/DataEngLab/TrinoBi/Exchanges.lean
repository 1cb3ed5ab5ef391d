/-
The exchanges of a conversation with Trino.

The log of a call of `execute` is read as exchanges, newest first: what was requested, what
came back, how much of it was kept, and whether the page was taken, that is, whether its
response was closed and the deadline had not passed then.  From the exchanges alone follows
which page is outstanding when something goes wrong.

`load_plays` says what one request leaves behind, and `absorb_ok` what one document adds.
-/
import DataEngLab.TrinoBi.Client
import DataEngLab.Lib.Tenure

namespace TrinoBi

namespace Client

open Lib

/-! ### Reading a log -/

/-- A request and what came of it; `request` is `none` for the statement itself. -/
structure Exchange where
  request : Option Str
  body : Bytes
  buffered : Bytes
  closed : Bool
  taken : Bool

/-- All that a response holds. -/
def bodyOf : Except Failure Response → Bytes
  | .ok response => response.chunks.flatten
  | .error _ => []

def Exchange.opened (request : Option Str) (reply : Except Failure Response) : Exchange :=
  ⟨request, bodyOf reply, [], false, false⟩

/-- The exchanges after one more call, newest first. -/
def note (started : Rat) : List Exchange → Event Call Answer → List Exchange
  | xs, ⟨.post _ _ _, reply⟩ => .opened none reply :: xs
  | xs, ⟨.get url _, reply⟩ => .opened (some url) reply :: xs
  | x :: xs, ⟨.extend chunk, _⟩ => { x with buffered := x.buffered ++ chunk } :: xs
  | x :: xs, ⟨.closeResponse, _⟩ => { x with closed := true } :: xs
  | x :: xs, ⟨.monotonic, now⟩ => { x with taken := x.taken || (x.closed && inTime started now) } :: xs
  | xs, _ => xs

/-- The exchanges of a call, whose first reading of the clock is when it started. -/
def exchanges : Log → List Exchange
  | ⟨.monotonic, started⟩ :: l => l.foldl (note started) []
  | _ => []

/-- The pages that were cancelled. -/
def cancels (l : Log) : List Str :=
  l.filterMap fun x => match x.1 with
    | .delete url => some url
    | _ => none

/-! ### What is asked of the exchanges -/

/-- The cells of a row. -/
def cellsOf : Json → List Json
  | .arr row => row
  | _ => []

/-- The rows in a document. -/
def documentRows (document : List (Str × Json)) : List (List Json) :=
  match Json.get "data" document with
  | some (.arr items) => items.map cellsOf
  | _ => []

namespace Exchange

/-- The document of a page that was taken. -/
def document (x : Exchange) : Option (List (Str × Json)) :=
  if x.taken then (decodeDocument x.body).toOption else none

/-- The page that a page names, if it passes as one. -/
def next (x : Exchange) : Option Str := x.document.bind fun d => (nextUri d).toOption.join

/-- The rows of a page. -/
def rows (x : Exchange) : List (List Json) := x.document.elim [] documentRows

end Exchange

/-- The first request is the statement, and each other one is for the page that the one before named. -/
def Linked : List Exchange → Prop
  | [] => True
  | [x] => x.request = none
  | x :: y :: rest => (∃ url, x.request = some url ∧ y.next = some url) ∧ Linked (y :: rest)

/-- The page that is outstanding: the one that the last page names, or the last one itself while it is not
there. -/
def outstanding : List Exchange → Option Str
  | [] => none
  | x :: _ => if x.document.isSome then x.next else x.request

structure Orderly (maxTotalBytes : Nat) (xs : List Exchange) : Prop where
  count : xs.length ≤ maxPages
  linked : Linked xs
  fresh : (xs.filterMap Exchange.request).Nodup
  responses : ∀ x ∈ xs, x.buffered.length ≤ maxResponseBytes
  total : (xs.map fun x => x.buffered.length).sum ≤ maxTotalBytes
  whole : ∀ x ∈ xs, x.taken = true → x.buffered = x.body

/-! ### Single steps -/

section
variable {started : Rat} {xs : List Exchange} {l : Log}

@[simp] theorem cancels_append (l₁ l₂ : Log) : cancels (l₁ ++ l₂) = cancels l₁ ++ cancels l₂ :=
  List.filterMap_append

/-- The last page was taken, or there is none yet. -/
def Settled (xs : List Exchange) : Prop := ∀ x ∈ xs.head?, x.taken = true

/-- A look at the clock changes nothing while a page is read, or after it was taken. -/
theorem note_clock {now : Rat} (h : ∀ x ∈ xs.head?, x.closed = false ∨ x.taken = true) :
    note started xs ⟨.monotonic, now⟩ = xs := by
  cases xs with
  | nil => rfl
  | cons x xs =>
      obtain ⟨request, body, buffered, closed, taken⟩ := x
      have hx : closed = false ∨ taken = true := h _ rfl
      rcases hx with rfl | rfl <;> simp [note]

theorem Settled.clock {now : Rat} (h : Settled xs) : note started xs ⟨.monotonic, now⟩ = xs :=
  note_clock fun x hx => .inr (h x hx)

theorem checkDeadline_plays {r : Except Exn Unit} (h : Plays (checkDeadline started) l r) :
    ∃ now, l = [⟨.monotonic, now⟩] ∧ ((inTime started now = true ∧ r = .ok ()) ∨
      (inTime started now = false ∧ ∃ m, r = .error (.protocol m))) := by
  obtain ⟨now, l', rfl, hrest⟩ := plays_perform_bind.mp h
  refine ⟨now, ?_⟩
  split at hrest
  · rename_i hnow
    obtain ⟨rfl, rfl⟩ := plays_pure.mp hrest
    exact ⟨rfl, .inl ⟨hnow, rfl⟩⟩
  · rename_i hnow
    obtain ⟨rfl, rfl⟩ := plays_throw.mp hrest
    exact ⟨rfl, .inr ⟨by simpa using hnow, _, rfl⟩⟩

theorem requestTimeout_plays {r : Except Exn Rat} (h : Plays (requestTimeout started) l r) :
    ∃ now, l = [⟨.monotonic, now⟩] := by
  obtain ⟨now, l', rfl, hrest⟩ := plays_perform_bind.mp h
  split at hrest
  · exact ⟨now, by rw [(plays_pure.mp hrest).1]⟩
  · exact ⟨now, by rw [(plays_throw.mp hrest).1]⟩

/-- What is cleaned up closes last, and what it raises never hides an error. -/
theorem withCleanup_plays {α : Type} {close : Call} {closed : Answer close → Option Failure} {message : String}
    {x : S α} {r : Except Exn α} (h : Plays (withCleanup close closed message x) l r) :
    ∃ l₁ a reply, l = l₁ ++ [⟨close, reply⟩] ∧ Plays x l₁ a ∧ (∀ e, a = .error e → r = .error e) ∧
      ∀ b, a = .ok b → r = .ok b ∨ ∃ e, r = .error e := by
  obtain ⟨e, hattempt, -⟩ | ⟨l₁, l₂, a, rfl, hattempt, hrest⟩ := plays_bind.mp h
  · obtain ⟨a, ha, -⟩ := plays_attempt.mp hattempt
    cases ha
  obtain ⟨a', ha, hx⟩ := plays_attempt.mp hattempt
  obtain rfl := Except.ok.inj ha
  cases a with
  | error e =>
      obtain ⟨reply, l₃, rfl, hthrow⟩ := plays_perform_bind.mp hrest
      obtain ⟨rfl, rfl⟩ := plays_throw.mp hthrow
      exact ⟨l₁, _, reply, rfl, hx, fun e' he => he, fun b hb => by cases hb⟩
  | ok b =>
      obtain ⟨reply, l₃, rfl, hclosed⟩ := plays_perform_bind.mp hrest
      have hend : l₃ = [] ∧ (r = .ok b ∨ ∃ e, r = .error e) := by
        split at hclosed
        · exact ⟨(plays_pure.mp hclosed).1, .inl (plays_pure.mp hclosed).2⟩
        · exact ⟨(plays_throw.mp hclosed).1, .inr ⟨_, (plays_throw.mp hclosed).2⟩⟩
        · exact ⟨(plays_throw.mp hclosed).1, .inr ⟨_, (plays_throw.mp hclosed).2⟩⟩
      obtain ⟨rfl, hr⟩ := hend
      refine ⟨l₁, _, reply, rfl, hx, fun e he => (by cases he), fun b' hb => ?_⟩
      rwa [← Except.ok.inj hb]

end

/-! ### One exchange -/

section
variable {started : Rat} {maxTotalBytes : Nat} {xs : List Exchange} {l : Log}

/-- Reading a body keeps some of it, within both bounds; all of it when it ends. -/
theorem readBody_plays {broken : Option Failure} : ∀ {chunks : List Bytes} {total : Nat} {payload : Bytes} {l : Log}
    {r : Except Exn Bytes} {x : Exchange}, Plays (readBody started maxTotalBytes broken total payload chunks) l r →
    x.closed = false → payload.length ≤ maxResponseBytes → total ≤ maxTotalBytes →
      ∃ more, l.foldl (note started) (x :: xs) = { x with buffered := x.buffered ++ more } :: xs ∧ cancels l = [] ∧
        payload.length + more.length ≤ maxResponseBytes ∧ total + more.length ≤ maxTotalBytes ∧
        ∀ b, r = .ok b → b = payload ++ more ∧ more = chunks.flatten := by
  intro chunks
  induction chunks with
  | nil =>
      intro total payload l r x h _ hpayload htotal
      have hend : l = [] ∧ ∀ b, r = .ok b → b = payload := by
        rw [readBody] at h
        cases broken with
        | none =>
            obtain ⟨rfl, rfl⟩ := plays_pure.mp h
            exact ⟨rfl, fun b hb => (Except.ok.inj hb).symm⟩
        | some f =>
            obtain ⟨e, hraise, rfl⟩ | ⟨l₁, l₂, u, rfl, hraise, -⟩ := plays_bind.mp h
            · exact ⟨(plays_throw.mp hraise).1, fun b hb => by cases hb⟩
            · cases (plays_throw.mp hraise).2
      obtain ⟨rfl, hr⟩ := hend
      exact ⟨[], by simp, rfl, by simpa using hpayload, by simpa using htotal, fun b hb => by simp [hr b hb]⟩
  | cons chunk rest ih =>
      intro total payload l r x h hx hpayload htotal
      have hquiet : ∀ {now : Rat} {y : Exchange}, y.closed = false →
          note started (y :: xs) ⟨.monotonic, now⟩ = y :: xs := fun hy => note_clock fun z hz => by
        obtain rfl := Option.some.inj hz
        exact .inl hy
      have hstop : ∀ {l₁ : Log}, l₁.foldl (note started) (x :: xs) = x :: xs → cancels l₁ = [] →
          (∀ b, r ≠ .ok b) → ∃ more, l₁.foldl (note started) (x :: xs) =
            { x with buffered := x.buffered ++ more } :: xs ∧ cancels l₁ = [] ∧
            payload.length + more.length ≤ maxResponseBytes ∧ total + more.length ≤ maxTotalBytes ∧
            ∀ b, r = .ok b → b = payload ++ more ∧ more = (chunk :: rest).flatten := by
        intro l₁ hl hc hr
        exact ⟨[], by simpa using hl, hc, by simpa using hpayload, by simpa using htotal,
          fun b hb => absurd hb (hr b)⟩
      rw [readBody] at h
      obtain ⟨e, hlate, rfl⟩ | ⟨l₁, l₂, u, rfl, hcheck, hchunk⟩ := plays_bind.mp h
      · obtain ⟨now, rfl, -⟩ := checkDeadline_plays hlate
        exact hstop (by simpa using hquiet hx) rfl (fun b hb => by cases hb)
      obtain ⟨now, rfl, -⟩ := checkDeadline_plays hcheck
      rw [List.singleton_append, List.foldl_cons, hquiet hx]
      have hc : ∀ l', cancels (⟨.monotonic, now⟩ :: l') = cancels l' := fun _ => rfl
      rw [hc]
      split at hchunk
      · rename_i hempty
        obtain ⟨more, hfold, hnone, hbytes, htotals, hwhole⟩ := ih hchunk hx hpayload htotal
        exact ⟨more, hfold, hnone, hbytes, htotals, fun b hb => by simpa [hempty] using hwhole b hb⟩
      · split at hchunk
        · obtain ⟨rfl, rfl⟩ := plays_throw.mp hchunk
          exact hstop rfl rfl (fun b hb => by cases hb)
        · split at hchunk
          · obtain ⟨rfl, rfl⟩ := plays_throw.mp hchunk
            exact hstop rfl rfl (fun b hb => by cases hb)
          · rename_i hresponse htotals
            obtain ⟨⟨⟩, l₃, rfl, hkept⟩ := plays_perform_bind.mp hchunk
            let y : Exchange := { x with buffered := x.buffered ++ chunk }
            have hy : y.closed = false := hx
            rw [List.foldl_cons, show note started (x :: xs) ⟨.extend chunk, ()⟩ = y :: xs from rfl]
            rw [show cancels (⟨.extend chunk, ()⟩ :: l₃) = cancels l₃ from rfl]
            obtain ⟨e, hlate, rfl⟩ | ⟨l₁, l₂, u, rfl, hcheck, hmore⟩ := plays_bind.mp hkept
            · obtain ⟨now, rfl, -⟩ := checkDeadline_plays hlate
              refine ⟨chunk, by simpa using hquiet hy, rfl, by omega, by omega, fun b hb => by cases hb⟩
            · obtain ⟨now, rfl, -⟩ := checkDeadline_plays hcheck
              rw [List.singleton_append, List.foldl_cons, hquiet hy]
              obtain ⟨more, hfold, hnone, hbytes, htotals', hwhole⟩ :=
                ih hmore hy (by rw [List.length_append]; omega) (by omega)
              rw [List.length_append] at hbytes
              refine ⟨chunk ++ more, ?_, hnone, ?_, ?_, fun b hb => ?_⟩
              · rw [hfold]
                simp [y]
              · rw [List.length_append]
                omega
              · rw [List.length_append]
                omega
              · obtain ⟨rfl, rfl⟩ := hwhole b hb
                simp

/-- A request, if there is one, opens an exchange. -/
theorem send_plays (started : Rat) {spec : QuerySpec} {request : Option Str} {timeout : Rat} {r : Except Exn Response}
    (h : Plays (send spec request timeout) l r) :
    (l = [] ∧ ∃ e, r = .error e) ∨ ∃ reply, (∀ xs, l.foldl (note started) xs = .opened request reply :: xs) ∧
      cancels l = [] ∧ r = reply.mapError Exn.raised := by
  cases request with
  | none =>
      obtain ⟨e, -, rfl, rfl⟩ | ⟨data, -, hpost⟩ := plays_lift_bind.mp h
      · exact .inl ⟨rfl, e, rfl⟩
      · obtain ⟨reply, l', rfl, hlift⟩ := plays_perform_bind.mp hpost
        obtain ⟨rfl, rfl⟩ := plays_lift.mp hlift
        exact .inr ⟨reply, fun _ => rfl, rfl, rfl⟩
  | some url =>
      obtain ⟨reply, l', rfl, hlift⟩ := plays_perform_bind.mp h
      obtain ⟨rfl, rfl⟩ := plays_lift.mp hlift
      exact .inr ⟨reply, fun _ => rfl, rfl, rfl⟩

/-- What a fetch leaves behind: nothing, or one exchange that is not taken yet. -/
structure Fetched (maxTotalBytes total : Nat) (request : Option Str) (x : Exchange) : Prop where
  request : x.request = request
  taken : x.taken = false
  response : x.buffered.length ≤ maxResponseBytes
  total : total + x.buffered.length ≤ maxTotalBytes

/-- What is done with a response before it is closed. -/
theorem response_plays (xs : List Exchange) {message : Exn} {total : Nat} {response : Response} {r : Except Exn Bytes} {x : Exchange}
    (hx : x.closed = false) (h : Plays (do
      checkDeadline started
      if response.status ≠ 200 then throw message
      else readBody started maxTotalBytes response.broken total [] response.chunks : S Bytes) l r)
    (htotal : total ≤ maxTotalBytes) :
    ∃ more, l.foldl (note started) (x :: xs) = { x with buffered := x.buffered ++ more } :: xs ∧ cancels l = [] ∧
      more.length ≤ maxResponseBytes ∧ total + more.length ≤ maxTotalBytes ∧
      ∀ b, r = .ok b → b = more ∧ more = response.chunks.flatten := by
  have hquiet : ∀ {now : Rat}, note started (x :: xs) ⟨.monotonic, now⟩ = x :: xs := note_clock fun y hy => by
    obtain rfl := Option.some.inj hy
    exact .inl hx
  obtain ⟨e, hlate, rfl⟩ | ⟨l₁, l₂, u, rfl, hcheck, hbody⟩ := plays_bind.mp h
  · obtain ⟨now, rfl, -⟩ := checkDeadline_plays hlate
    exact ⟨[], by simpa using hquiet, rfl, Nat.zero_le _, htotal, fun b hb => by cases hb⟩
  obtain ⟨now, rfl, -⟩ := checkDeadline_plays hcheck
  rw [List.singleton_append, List.foldl_cons, hquiet, show cancels (⟨.monotonic, now⟩ :: l₂) = cancels l₂ from rfl]
  split at hbody
  · obtain ⟨rfl, rfl⟩ := plays_throw.mp hbody
    exact ⟨[], by simp, rfl, Nat.zero_le _, htotal, fun b hb => by cases hb⟩
  · obtain ⟨more, hfold, hnone, hbytes, htotals, hwhole⟩ := readBody_plays hbody hx (Nat.zero_le _) htotal
    exact ⟨more, hfold, hnone, by simpa using hbytes, htotals, fun b hb => by simpa using hwhole b hb⟩

theorem fetch_plays {spec : QuerySpec} {total : Nat} {request : Option Str} {r : Except Exn Bytes}
    (h : Plays (fetch spec started maxTotalBytes total request) l r) (hxs : Settled xs)
    (htotal : total ≤ maxTotalBytes) :
    cancels l = [] ∧ ((l.foldl (note started) xs = xs ∧ ∃ e, r = .error e) ∨
      ∃ x, l.foldl (note started) xs = x :: xs ∧ Fetched maxTotalBytes total request x ∧
        ∀ b, r = .ok b → x.closed = true ∧ x.buffered = x.body ∧ b = x.body) := by
  obtain ⟨e, hlate, rfl⟩ | ⟨l₁, l₂, timeout, rfl, htimeout, hsend⟩ := plays_bind.mp h
  · obtain ⟨now, rfl⟩ := requestTimeout_plays hlate
    exact ⟨rfl, .inl ⟨by simpa using hxs.clock, e, rfl⟩⟩
  obtain ⟨now, rfl⟩ := requestTimeout_plays htimeout
  rw [List.singleton_append, List.foldl_cons, hxs.clock, show cancels (⟨.monotonic, now⟩ :: l₂) = cancels l₂ from rfl]
  obtain ⟨e, hfailed, rfl⟩ | ⟨l₃, l₄, response, rfl, hresponse, hclean⟩ := plays_bind.mp hsend
  · obtain ⟨rfl, -⟩ | ⟨reply, hfold, hnone, -⟩ := send_plays started hfailed
    · exact ⟨rfl, .inl ⟨rfl, e, rfl⟩⟩
    · exact ⟨hnone, .inr ⟨_, hfold xs, ⟨rfl, rfl, Nat.zero_le _, htotal⟩, fun b hb => by cases hb⟩⟩
  obtain ⟨-, e, he⟩ | ⟨reply, hfold, hnone, hreply⟩ := send_plays started hresponse
  · cases he
  cases reply with
  | error f => cases hreply
  | ok response' =>
      obtain rfl := Except.ok.inj hreply
      obtain ⟨l₅, a, closing, rfl, hread, herror, hok⟩ := withCleanup_plays hclean
      obtain ⟨more, hfold', hnone', hbytes, htotals, hwhole⟩ :=
        response_plays xs (show (Exchange.opened request (.ok response)).closed = false from rfl) hread htotal
      rw [List.foldl_append, hfold, List.foldl_append, hfold', cancels_append, cancels_append, hnone, hnone']
      refine ⟨rfl, .inr ⟨_, rfl, ⟨rfl, rfl, hbytes, htotals⟩, fun b hb => ?_⟩⟩
      cases a with
      | error e =>
          rw [herror e rfl] at hb
          cases hb
      | ok b' =>
          obtain ⟨rfl, rfl⟩ := hwhole b' rfl
          obtain hr | ⟨e, hr⟩ := hok _ rfl
          · exact ⟨rfl, rfl, Except.ok.inj (hb.symm.trans hr)⟩
          · rw [hr] at hb
            cases hb

/-- A page that is loaded is taken. -/
theorem load_plays {spec : QuerySpec} {total : Nat} {request : Option Str} {r : Except Exn Bytes}
    (h : Plays (load spec started maxTotalBytes total request) l r) (hxs : Settled xs)
    (htotal : total ≤ maxTotalBytes) :
    cancels l = [] ∧
      ((∃ e, r = .error e ∧ (l.foldl (note started) xs = xs ∨
        ∃ x, l.foldl (note started) xs = x :: xs ∧ Fetched maxTotalBytes total request x)) ∨
      ∃ x, Fetched maxTotalBytes total request x ∧ l.foldl (note started) xs = { x with taken := true } :: xs ∧
        x.buffered = x.body ∧ r = .ok x.body) := by
  obtain ⟨e, hfailed, rfl⟩ | ⟨l₁, l₂, payload, rfl, hfetched, h₁⟩ := plays_bind.mp h
  · obtain ⟨hnone, ⟨hfold, -⟩ | ⟨x, hfold, hx, -⟩⟩ := fetch_plays hfailed hxs htotal
    · exact ⟨hnone, .inl ⟨e, rfl, .inl hfold⟩⟩
    · exact ⟨hnone, .inl ⟨e, rfl, .inr ⟨x, hfold, hx⟩⟩⟩
  obtain ⟨hnone, ⟨-, e, he⟩ | ⟨x, hfold, hx, hok⟩⟩ := fetch_plays hfetched hxs htotal
  · cases he
  obtain ⟨hclosed, hbuffered, rfl⟩ := hok payload rfl
  have htick : ∀ {now : Rat}, note started (x :: xs) ⟨.monotonic, now⟩ = { x with taken := inTime started now } :: xs := by
    intro now
    simp [note, hx.taken, hclosed]
  obtain ⟨e, hlate, rfl⟩ | ⟨l₃, l₄, u, rfl, hcheck, hreturn⟩ := plays_bind.mp h₁
  · obtain ⟨now, rfl, ⟨-, hr⟩ | ⟨hnow, -⟩⟩ := checkDeadline_plays hlate
    · cases hr
    rw [List.foldl_append, hfold, List.foldl_cons, htick, hnow, cancels_append, hnone]
    exact ⟨rfl, .inl ⟨e, rfl, .inr ⟨_, rfl, hx.request, rfl, hx.response, hx.total⟩⟩⟩
  · obtain ⟨now, rfl, ⟨hnow, -⟩ | ⟨-, m, hm⟩⟩ := checkDeadline_plays hcheck
    · obtain ⟨rfl, rfl⟩ := plays_pure.mp hreturn
      rw [List.foldl_append, hfold, List.append_nil, List.foldl_cons, htick, hnow, cancels_append, hnone]
      exact ⟨rfl, .inr ⟨x, hx, rfl, hbuffered, rfl⟩⟩
    · cases hm

end

/-! ### One document -/

section
variable {floatText : Str → Str} {spec : QuerySpec} {d : List (Str × Json)}

theorem rowOf_ok {width : Nat} {item : Json} {row : List Json} (h : rowOf floatText width item = .ok row) :
    cellsOf item = row ∧ row.length = width ∧ ∀ cell ∈ row, isInfinite cell = false := by
  cases item with
  | arr cells =>
      simp only [rowOf, bind_eq_ok, require_eq_ok, beq_iff_eq, pure_eq_ok] at h
      obtain ⟨-, hwidth, us, hcells, rfl⟩ := h
      refine ⟨rfl, hwidth, fun cell hcell => ?_⟩
      obtain ⟨u, -, hchecked⟩ := exists_right_of_mem (checkAll_eq_ok.mp hcells) hcell
      simp only [checkCell, bind_eq_ok, require_eq_ok, Bool.not_eq_true'] at hchecked
      exact hchecked.choose_spec.1
  | _ => cases h

theorem parseRows_ok {columns : Option (List (Str × Str))} {rows : List (List Json)}
    (hcolumns : ∀ c, columns = some c → c = spec.columns)
    (h : parseRows floatText (Json.get "data" d) columns spec = .ok rows) :
    rows = documentRows d ∧ ∀ row ∈ rows, row.length = spec.columns.length ∧ ∀ cell ∈ row, isInfinite cell = false := by
  unfold parseRows at h
  unfold documentRows
  split at h
  · rename_i hdata
    rw [hdata, ← Except.ok.inj h]
    simp
  · rename_i hdata
    rw [hdata, ← Except.ok.inj h]
    simp
  · rename_i items hdata
    simp only [bind_eq_ok, orElse_eq_ok, require_eq_ok] at h
    obtain ⟨c, hc, -, -, hrows⟩ := h
    obtain rfl := hcolumns c hc
    rw [hdata]
    refine ⟨?_, fun row hrow => ?_⟩
    · have hall := checkAll_eq_ok.mp hrows
      show rows = items.map cellsOf
      rw [← List.forall₂_eq_eq_eq, List.forall₂_map_right_iff]
      exact hall.flip.imp fun row item hitem => (rowOf_ok hitem).1.symm
    · obtain ⟨item, -, hitem⟩ := checkAll_mem hrows hrow
      exact (rowOf_ok hitem).2
  · cases h

theorem parseColumns_ok {value : Option Json} {columns : Option (List (Str × Str))}
    (h : parseColumns value spec = .ok columns) : ∀ c, columns = some c → c = spec.columns := by
  intro c hc
  unfold parseColumns at h
  split at h
  · rw [← Except.ok.inj h] at hc
    cases hc
  · rw [← Except.ok.inj h] at hc
    cases hc
  · simp only [bind_eq_ok, require_eq_ok, beq_iff_eq, pure_eq_ok] at h
    obtain ⟨-, -, c', -, -, hreviewed, rfl⟩ := h
    rw [← Option.some.inj hc, hreviewed]
  · cases h

theorem queryIdOf_ok {id : Str} (h : queryIdOf d = .ok id) : Json.get "id" d = some (.str id) := by
  unfold queryIdOf at h
  split at h
  · split at h
    · rename_i s hid _
      rw [hid, ← Except.ok.inj h]
    · cases h
  · cases h

/-- What a document adds to what was read before it. -/
structure Absorbed (spec : QuerySpec) (before after : Progress) (d : List (Str × Json)) (state : Str) : Prop where
  seen : after.seen = before.seen
  totalBytes : after.totalBytes = before.totalBytes
  requestCount : after.requestCount = before.requestCount
  queryId : ∃ id, Json.get "id" d = some (.str id) ∧ after.queryId = some id ∧
    ∀ id', before.queryId = some id' → id' = id
  error : Json.get "error" d = none
  columns : ∀ c, after.columns = some c → c = spec.columns
  rows : after.rows = before.rows ++ documentRows d
  width : ∀ row ∈ documentRows d, row.length = spec.columns.length ∧ ∀ cell ∈ row, isInfinite cell = false
  state : stateOf d = .ok state

theorem absorb_ok {before after : Progress} {state : Str} (hcolumns : ∀ c, before.columns = some c → c = spec.columns)
    (h : absorb floatText spec before d = .ok (after, state)) : Absorbed spec before after d state := by
  simp only [absorb, bind_eq_ok, require_eq_ok, pure_eq_ok, Option.isNone_iff_eq_none] at h
  obtain ⟨id, hid, u, hsame, -, herror, pageColumns, hpage, pageRows, hrows, -, -, state', hstate, hafter⟩ := h
  obtain ⟨rfl, rfl⟩ := Prod.mk.inj hafter
  have hall : ∀ c, pageColumns.or before.columns = some c → c = spec.columns := by
    intro c hc
    cases pageColumns with
    | none => exact hcolumns c (by simpa using hc)
    | some c' => exact parseColumns_ok hpage c (by simpa using hc)
  obtain ⟨rfl, hwidth⟩ := parseRows_ok hall hrows
  refine ⟨rfl, rfl, rfl, ⟨id, queryIdOf_ok hid, rfl, fun id' hid' => ?_⟩, herror, hall, rfl, hwidth, hstate⟩
  rw [hid'] at hsame
  simp only [sameQuery, require_eq_ok, beq_iff_eq] at hsame
  exact hsame.symm

end

end Client

end TrinoBi
