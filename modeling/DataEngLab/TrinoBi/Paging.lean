/-
The pages of a query.

`Keeps` is the rule for a part of the loop: what it raises comes with the page that is
outstanding then, and what it returns is what the exchanges came to.  `pages_keeps` is the
induction over the pages.
-/
import DataEngLab.TrinoBi.Exchanges

namespace TrinoBi

namespace Client

open Lib

/-! ### All pages -/

/-- A result stands for all pages: one query without errors, up to its end. -/
structure Delivered (spec : QuerySpec) (xs : List Exchange) (result : QueryResult) : Prop where
  pages : ∀ x ∈ xs, ∃ d, x.document = some d ∧ Json.get "id" d = some (.str result.queryId) ∧
    Json.get "error" d = none
  last : ∃ x rest d, xs = x :: rest ∧ x.document = some d ∧ stateOf d = .ok (lit "FINISHED") ∧ nextUri d = .ok none
  columns : result.columns = spec.columns
  rows : result.rows = xs.reverse.flatMap Exchange.rows
  width : ∀ row ∈ result.rows, row.length = spec.columns.length

section
variable {floatText : Str → Str} {spec : QuerySpec} {started : Rat} {maxTotalBytes : Nat} {l : Log}

theorem cancelling_bind {α β : Type} {uri : Option Str} {x : S α} {f : α → Paging β} {r : Except (Exn × Option Str) β}
    (h : Plays (cancelling uri x >>= f : Paging β) l r) :
    (∃ e, Plays x l (.error e) ∧ r = .error (e, uri)) ∨
      ∃ l₁ l₂ a, l = l₁ ++ l₂ ∧ Plays x l₁ (.ok a) ∧ Plays (f a) l₂ r := by
  obtain ⟨e, hx, rfl⟩ | ⟨l₁, l₂, a, rfl, hx, hf⟩ := plays_bind.mp h
  · obtain ⟨e' | a, he, hraised⟩ := plays_mapError.mp hx
    · obtain rfl := Except.error.inj he
      exact .inl ⟨e', hraised, rfl⟩
    · cases he
  · obtain ⟨e' | a', ha, hreturned⟩ := plays_mapError.mp hx
    · cases ha
    · obtain rfl := Except.ok.inj ha
      exact .inr ⟨l₁, l₂, a, rfl, hreturned, hf⟩

/-- `progress` is what the pages came to, each of which was taken. -/
structure Collected (spec : QuerySpec) (maxTotalBytes : Nat) (progress : Progress) (xs : List Exchange) : Prop where
  orderly : Orderly maxTotalBytes xs
  pages : ∀ x ∈ xs, ∃ d id, x.document = some d ∧ Json.get "id" d = some (.str id) ∧
    progress.queryId = some id ∧ Json.get "error" d = none
  seen : progress.seen = xs.filterMap Exchange.request
  total : progress.totalBytes = (xs.map fun x => x.buffered.length).sum
  columns : ∀ c, progress.columns = some c → c = spec.columns
  rows : progress.rows = xs.reverse.flatMap Exchange.rows
  width : ∀ row ∈ progress.rows, row.length = spec.columns.length ∧ ∀ cell ∈ row, isInfinite cell = false

/-- Where the loop stands before a request, which is for the page that is outstanding. -/
structure Progressed (spec : QuerySpec) (maxTotalBytes : Nat) (progress : Progress) (request : Option Str)
    (xs : List Exchange) : Prop extends Collected spec maxTotalBytes progress xs where
  outstanding : outstanding xs = request
  follows : xs ≠ [] → request.isSome = true

theorem progressed_start (spec : QuerySpec) (maxTotalBytes : Nat) :
    Progressed spec maxTotalBytes .start none [] where
  orderly := ⟨Nat.zero_le _, trivial, List.nodup_nil, by simp, Nat.zero_le _, by simp⟩
  pages := by simp
  outstanding := rfl
  follows h := absurd rfl h
  seen := rfl
  total := rfl
  columns c hc := by cases hc
  rows := rfl
  width := by simp [Progress.start]

theorem document_taken {x : Exchange} {d : List (Str × Json)} (h : x.document = some d) : x.taken = true := by
  unfold Exchange.document at h
  split at h
  · assumption
  · cases h

section
variable {progress : Progress} {request : Option Str} {xs : List Exchange} {x : Exchange}

theorem Collected.settled (h : Collected spec maxTotalBytes progress xs) : Settled xs := by
  intro x hx
  obtain ⟨d, -, hd, -⟩ := h.pages x (List.mem_of_mem_head? hx)
  exact document_taken hd

/-- One more exchange, for the page that was outstanding. -/
theorem Progressed.cons (h : Progressed spec maxTotalBytes progress request xs) (hcount : xs.length < maxPages)
    (hfresh : ∀ url ∈ request, url ∉ progress.seen) (hrequest : x.request = request)
    (hresponse : x.buffered.length ≤ maxResponseBytes)
    (htotal : progress.totalBytes + x.buffered.length ≤ maxTotalBytes)
    (hwhole : x.taken = true → x.buffered = x.body) : Orderly maxTotalBytes (x :: xs) where
  count := hcount
  linked := by
    cases xs with
    | nil => exact hrequest.trans h.outstanding.symm
    | cons y rest =>
        obtain ⟨url, hurl⟩ := Option.isSome_iff_exists.mp (h.follows (List.cons_ne_nil y rest))
        obtain ⟨d, -, hd, -⟩ := h.pages y List.mem_cons_self
        have hnext := h.outstanding
        rw [Client.outstanding, hd] at hnext
        exact ⟨⟨url, hrequest.trans hurl, hnext.trans hurl⟩, h.orderly.linked⟩
  fresh := by
    cases hr : x.request with
    | none => simpa [hr] using h.orderly.fresh
    | some url =>
        have hurl := hfresh url (by rw [← hrequest, hr]; rfl)
        rw [h.seen] at hurl
        rw [List.filterMap_cons_some hr, List.nodup_cons]
        exact ⟨hurl, h.orderly.fresh⟩
  responses y hy := by
    rcases List.mem_cons.mp hy with rfl | hy
    · exact hresponse
    · exact h.orderly.responses y hy
  total := by
    rw [List.map_cons, List.sum_cons, ← h.total]
    omega
  whole y hy := by
    rcases List.mem_cons.mp hy with rfl | hy
    · exact hwhole
    · exact h.orderly.whole y hy

/-- While a page is not there, it is outstanding itself. -/
theorem outstanding_absent (hx : x.document = none) : outstanding (x :: xs) = x.request := by
  rw [outstanding, hx]
  rfl

theorem outstanding_document (xs : List Exchange) {x : Exchange} {d : List (Str × Json)} (hx : x.document = some d) :
    outstanding (x :: xs) = (nextUri d).toOption.join := by
  rw [outstanding, Exchange.next, hx]
  rfl

/-- A page that was taken and accepted is one more that the loop stands on. -/
theorem Progressed.absorbed {after : Progress} {d : List (Str × Json)} {state : Str} {seen : List Str}
    {total count : Nat} (h : Progressed spec maxTotalBytes progress request xs)
    (horderly : Orderly maxTotalBytes (x :: xs)) (hrequest : x.request = request) (hd : x.document = some d)
    (hseen : seen = request.toList ++ progress.seen) (htotal : total = progress.totalBytes + x.buffered.length)
    (habsorbed : Absorbed spec { progress with seen := seen, totalBytes := total, requestCount := count } after d state) :
    Collected spec maxTotalBytes after (x :: xs) where
  orderly := horderly
  pages y hy := by
    obtain ⟨id, hid, hafter, hsame⟩ := habsorbed.queryId
    rcases List.mem_cons.mp hy with rfl | hy
    · exact ⟨d, id, hd, hid, hafter, habsorbed.error⟩
    · obtain ⟨d', id', hd', hid', hquery, herror⟩ := h.pages y hy
      rw [hsame id' hquery] at hid'
      exact ⟨d', id, hd', hid', hafter, herror⟩
  seen := by
    rw [habsorbed.seen]
    show seen = _
    rw [hseen, h.seen]
    cases hr : x.request with
    | none => rw [List.filterMap_cons_none hr, ← hrequest, hr]; rfl
    | some url => rw [List.filterMap_cons_some hr, ← hrequest, hr]; rfl
  total := by
    rw [habsorbed.totalBytes]
    show total = _
    rw [htotal, h.total, List.map_cons, List.sum_cons, Nat.add_comm]
  columns := habsorbed.columns
  rows := by
    have hrows : x.rows = documentRows d := by
      rw [Exchange.rows, hd]
      rfl
    rw [habsorbed.rows, List.reverse_cons, List.flatMap_append, ← h.rows]
    simp [hrows]
  width row hrow := by
    rw [habsorbed.rows] at hrow
    rcases List.mem_append.mp hrow with hrow | hrow
    · exact h.width row hrow
    · exact habsorbed.width row hrow

end

/-- How a part of the loop ends: what it raises names the page that is outstanding, and what it returns is
what `Q` says of it and of the exchanges. -/
def Ends {α : Type} (maxTotalBytes : Nat) (Q : α → List Exchange → Prop) (xs : List Exchange) :
    Except (Exn × Option Str) α → Prop
  | .error (_, uri) => Orderly maxTotalBytes xs ∧ uri = outstanding xs
  | .ok a => Q a xs

/-- A part of the loop that is entered with these exchanges, whatever its calls are answered. -/
def Keeps {α : Type} (started : Rat) (maxTotalBytes : Nat) (xs : List Exchange) (p : Paging α)
    (Q : α → List Exchange → Prop) : Prop :=
  ∀ l r, Plays p l r → cancels l = [] ∧ Ends maxTotalBytes Q (l.foldl (note started) xs) r

section
variable {α β : Type} {xs : List Exchange} {uri : Option Str} {Q : α → List Exchange → Prop}

theorem keeps_pure {a : α} (h : Q a xs) : Keeps started maxTotalBytes xs (pure a) Q := by
  intro l r hplays
  obtain ⟨rfl, rfl⟩ := plays_pure.mp hplays
  exact ⟨rfl, h⟩

theorem Keeps.bind {p : Paging β} {f : β → Paging α} {Q' : β → List Exchange → Prop}
    (hp : Keeps started maxTotalBytes xs p Q')
    (hf : ∀ b xs', Q' b xs' → Keeps started maxTotalBytes xs' (f b) Q) :
    Keeps started maxTotalBytes xs (p >>= f) Q := by
  intro l r hplays
  obtain ⟨e, hraised, rfl⟩ | ⟨l₁, l₂, b, rfl, hreturned, hrest⟩ := plays_bind.mp hplays
  · exact hp l _ hraised
  · obtain ⟨hnone, hb⟩ := hp l₁ _ hreturned
    obtain ⟨hnone', hends⟩ := hf b _ hb l₂ r hrest
    rw [cancels_append, hnone, hnone', List.foldl_append]
    exact ⟨rfl, hends⟩

theorem keeps_lift {x : Except Exn β} {f : β → Paging α} (hs : Orderly maxTotalBytes xs)
    (herror : ∀ e, x = .error e → uri = outstanding xs)
    (hf : ∀ b, x = .ok b → Keeps started maxTotalBytes xs (f b) Q) :
    Keeps started maxTotalBytes xs (cancelling uri (lift x) >>= f) Q := by
  intro l r hplays
  obtain ⟨e, hraised, rfl⟩ | ⟨l₁, l₂, b, rfl, hreturned, hrest⟩ := cancelling_bind hplays
  · obtain ⟨rfl, he⟩ := plays_lift.mp hraised
    exact ⟨rfl, hs, herror e he.symm⟩
  · obtain ⟨rfl, hb⟩ := plays_lift.mp hreturned
    exact hf b hb.symm l₂ r hrest

theorem keeps_clock {f : Unit → Paging α} (hsettled : Settled xs) (hs : Orderly maxTotalBytes xs)
    (huri : uri = outstanding xs) (hf : Keeps started maxTotalBytes xs (f ()) Q) :
    Keeps started maxTotalBytes xs (cancelling uri (checkDeadline started) >>= f) Q := by
  intro l r hplays
  obtain ⟨e, hlate, rfl⟩ | ⟨l₁, l₂, u, rfl, hcheck, hrest⟩ := cancelling_bind hplays
  · obtain ⟨now, rfl, -⟩ := checkDeadline_plays hlate
    rw [List.foldl_cons, hsettled.clock]
    exact ⟨rfl, hs, huri⟩
  · obtain ⟨now, rfl, -⟩ := checkDeadline_plays hcheck
    rw [List.singleton_append, List.foldl_cons, hsettled.clock]
    exact hf l₂ r hrest

end

/-- What a page that was taken says. -/
structure Examined (spec : QuerySpec) (before after : Progress) (next : Option Str) (state : Str) (y : Exchange) :
    Prop where
  document : ∃ d, y.document = some d ∧ nextUri d = .ok next ∧ Absorbed spec before after d state

section
variable {progress : Progress} {request : Option Str} {xs : List Exchange} {y : Exchange}

theorem settled_cons (hy : y.taken = true) : Settled (y :: xs) := fun z hz => by
  obtain rfl := Option.some.inj hz
  exact hy

theorem examine_keeps {payload : Bytes} (hs : Orderly maxTotalBytes (y :: xs)) (hy : y.taken = true)
    (hbody : y.body = payload) (hrequest : y.request = request)
    (hcolumns : ∀ c, progress.columns = some c → c = spec.columns) :
    Keeps started maxTotalBytes (y :: xs) (examine floatText spec started request progress payload)
      fun result xs' => xs' = y :: xs ∧ Examined spec progress result.2.1 result.1 result.2.2 y := by
  have hsettled : Settled (y :: xs) := settled_cons hy
  have hdocument : y.document = (decodeDocument payload).toOption := by
    rw [Exchange.document, if_pos hy, hbody]
  refine keeps_lift hs (fun e he => ?_) fun d hd => ?_
  · rw [outstanding_absent (by rw [hdocument, he]; rfl), hrequest]
  rw [hd] at hdocument
  have hout := outstanding_document xs hdocument
  refine keeps_lift hs (fun e he => ?_) fun next hnext => ?_
  · rw [hout, he]
    rfl
  rw [hnext] at hout
  refine keeps_clock hsettled hs hout.symm (keeps_lift hs (fun _ _ => hout.symm) fun after habsorb => ?_)
  exact keeps_clock hsettled hs hout.symm
    (keeps_pure ⟨rfl, d, hdocument, hnext, absorb_ok hcolumns habsorb⟩)

/-- The last page. -/
theorem finish_keeps {d : List (Str × Json)} {state : Str} (h : Collected spec maxTotalBytes progress (y :: xs))
    (hd : y.document = some d) (hstate : stateOf d = .ok state) (hnext : nextUri d = .ok none) :
    Keeps started maxTotalBytes (y :: xs) (cancelling none (finish started progress state)) fun result xs' =>
      Orderly maxTotalBytes xs' ∧ Delivered spec xs' result ∧
        ∀ row ∈ result.rows, ∀ cell ∈ row, isInfinite cell = false := by
  intro l r hplays
  have hnone : none = outstanding (y :: xs) := by
    rw [outstanding_document _ hd, hnext]
    rfl
  obtain ⟨a, rfl, hfinish⟩ := plays_mapError.mp hplays
  obtain ⟨e, hfinished, rfl, rfl⟩ | ⟨u, hfinished, h₁⟩ := plays_lift_bind.mp hfinish
  · exact ⟨rfl, h.orderly, hnone⟩
  obtain ⟨e, hcolumns, rfl, rfl⟩ | ⟨columns, hcolumns, h₂⟩ := plays_lift_bind.mp h₁
  · exact ⟨rfl, h.orderly, hnone⟩
  obtain ⟨e, hlate, rfl⟩ | ⟨l₁, l₂, u, rfl, hcheck, h₃⟩ := plays_bind.mp h₂
  · obtain ⟨now, rfl, -⟩ := checkDeadline_plays hlate
    rw [List.foldl_cons, h.settled.clock]
    exact ⟨rfl, h.orderly, hnone⟩
  obtain ⟨now, rfl, -⟩ := checkDeadline_plays hcheck
  rw [List.singleton_append, List.foldl_cons, h.settled.clock]
  obtain ⟨e, hid, rfl, rfl⟩ | ⟨queryId, hid, h₄⟩ := plays_lift_bind.mp h₃
  · exact ⟨rfl, h.orderly, hnone⟩
  obtain ⟨rfl, rfl⟩ := plays_pure.mp h₄
  rw [orElse_eq_ok] at hcolumns hid
  rw [require_eq_ok, beq_iff_eq] at hfinished
  refine ⟨rfl, h.orderly, ⟨fun x hx => ?_, ⟨y, xs, d, rfl, hd, hfinished ▸ hstate, hnext⟩, h.columns columns hcolumns,
    h.rows, fun row hrow => (h.width row hrow).1⟩, fun row hrow => (h.width row hrow).2⟩
  obtain ⟨d', id', hd', hid', hquery, herror⟩ := h.pages x hx
  obtain rfl : id' = queryId := Option.some.inj (hquery.symm.trans hid)
  exact ⟨d', hd', hid', herror⟩

/-- Loading the page that is outstanding. -/
theorem load_keeps (h : Progressed spec maxTotalBytes progress request xs) (hcount : xs.length < maxPages)
    (hfresh : ∀ url ∈ request, url ∉ progress.seen) :
    Keeps started maxTotalBytes xs (cancelling request (load spec started maxTotalBytes progress.totalBytes request))
      fun payload xs' => ∃ y, xs' = y :: xs ∧ Orderly maxTotalBytes (y :: xs) ∧ y.taken = true ∧ y.body = payload ∧
        y.buffered = payload ∧ y.request = request := by
  intro l r hplays
  have htotal : progress.totalBytes ≤ maxTotalBytes := h.total ▸ h.orderly.total
  obtain ⟨a, rfl, hload⟩ := plays_mapError.mp hplays
  obtain ⟨hnone, ⟨e, rfl, hfold | ⟨x, hfold, hx⟩⟩ | ⟨x, hx, hfold, hbuffered, rfl⟩⟩ :=
    load_plays hload h.settled htotal
  · rw [hfold]
    exact ⟨hnone, h.orderly, h.outstanding.symm⟩
  · rw [hfold]
    refine ⟨hnone, h.cons hcount hfresh hx.request hx.response hx.total fun ht => ?_, ?_⟩
    · rw [hx.taken] at ht
      cases ht
    · rw [outstanding_absent (by rw [Exchange.document, hx.taken]; rfl), hx.request]
  · rw [hfold]
    exact ⟨hnone, _, rfl, h.cons hcount hfresh hx.request hx.response hx.total fun _ => hbuffered, rfl, rfl, hbuffered,
      hx.request⟩

end

/-- **The induction over the pages.** -/
theorem pages_keeps : ∀ {rounds : Nat} {request : Option Str} {progress : Progress} {xs : List Exchange},
    Progressed spec maxTotalBytes progress request xs → rounds + xs.length = maxPages →
      Keeps started maxTotalBytes xs (pages floatText spec started maxTotalBytes rounds request progress)
        fun result xs' => Orderly maxTotalBytes xs' ∧ Delivered spec xs' result ∧
          ∀ row ∈ result.rows, ∀ cell ∈ row, isInfinite cell = false := by
  intro rounds
  induction rounds with
  | zero =>
      intro request progress xs h _ l r hplays
      obtain ⟨a, rfl, hthrow⟩ := plays_mapError.mp hplays
      obtain ⟨rfl, rfl⟩ := plays_throw.mp hthrow
      exact ⟨rfl, h.orderly, h.outstanding.symm⟩
  | succ rounds ih =>
      intro request progress xs h hrounds
      refine keeps_lift h.orderly (fun _ _ => h.outstanding.symm) fun _ _ => ?_
      refine keeps_lift h.orderly (fun _ _ => h.outstanding.symm) fun u hunseen => ?_
      have hfresh : ∀ url ∈ request, url ∉ progress.seen := by
        intro url hurl
        rw [require_eq_ok, Option.mem_def.mp hurl] at hunseen
        simpa using hunseen
      refine (load_keeps h (by omega) hfresh).bind ?_
      rintro payload _ ⟨y, rfl, hs, hy, hbody, hbuffered, hrequest⟩
      let before : Progress := { progress with
        seen := request.toList ++ progress.seen
        totalBytes := progress.totalBytes + payload.length
        requestCount := progress.requestCount + 1 }
      refine (examine_keeps hs hy hbody hrequest (show ∀ c, before.columns = some c → _ from h.columns)).bind ?_
      rintro ⟨next, after, state⟩ _ ⟨rfl, d, hd, hnext, habsorbed⟩
      have hcollected := h.absorbed hs hrequest hd rfl (by rw [hbuffered]) habsorbed
      have hout := outstanding_document xs hd
      rw [hnext] at hout
      cases next with
      | none => exact finish_keeps hcollected hd habsorbed.state hnext
      | some url =>
          refine keeps_lift hs (fun _ _ => hout.symm) fun _ _ => keeps_clock hcollected.settled hs hout.symm ?_
          refine ih ⟨hcollected, hout, fun _ => rfl⟩ ?_
          rw [List.length_cons]
          omega

end

end Client

end TrinoBi
