/-
What an inventory lists.

The store answers the calls of `inventory` with any pages.  What is returned is every
record of every page, once, in the order of the keys: nothing is dropped, and no page is
read twice (`inventory_complete`).  A listing that breaks off returns nothing.

Besides the gateway's own failures only what comes from outside is raised: an interrupt, the
first reading of the clock, which is not guarded, and the deadline of the operation.
-/
import DataEngLab.Checkpoints.PlanRoundTrip
import DataEngLab.Lib.Trace

namespace Checkpoints

open Lib

abbrev Log := List (Event Call Answer)

/-- What the store answered to each call of the listing. -/
def replies (l : Log) : List (Reply (Option Page)) :=
  l.filterMap fun x => match x with
    | ⟨.listObjects _ _, reply⟩ => some reply
    | _ => none

@[simp] theorem replies_append (l₁ l₂ : Log) : replies (l₁ ++ l₂) = replies l₁ ++ replies l₂ := List.filterMap_append

/-! ### Pages -/

/-- A record is what the item says. -/
structure Describes (item : ListItem) (r : ObjectRecord) : Prop where
  key : item.key = .str r.key
  etag : parseEtag item.etag = some r.etag
  size : item.size = .int r.sizeBytes
  lastModified : normalizeS3Timestamp item.lastModified = some r.lastModified

/-- The records of a page, all of them and in its order. -/
structure Lists (page : Page) (records : List ObjectRecord) : Prop where
  contents : ∃ items, page.contents = some (items.map some) ∧ List.Forall₂ Describes items records

/-- The key is strictly under the prefix. -/
def Under (keyPrefix : Str) (r : ObjectRecord) : Prop := keyPrefix <+: r.key ∧ r.key ≠ keyPrefix

section
variable {bounds : OperationBounds} {keyPrefix : Str}

theorem create_ok {key etag size : Json} {lastModified : Option Instant} {r : ObjectRecord}
    (h : ObjectRecord.create key etag size lastModified = .ok r) :
    key = .str r.key ∧ etag = .str r.etag ∧ size = .int r.sizeBytes ∧ lastModified = some r.lastModified := by
  unfold ObjectRecord.create at h
  split at h
  · split at h
    · split at h
      · split at h
        · split at h
          · rename_i n
            split at h
            · rename_i hpos
              split at h
              · obtain rfl := Except.ok.inj h
                exact ⟨rfl, rfl, by rw [Int.toNat_of_nonneg (by omega)], rfl⟩
              · cases h
            · cases h
          · cases h
        · cases h
      · cases h
    · cases h
  · cases h

theorem inventoryItem_ok {item : Option ListItem} {r : ObjectRecord} (h : inventoryItem keyPrefix item = .ok r) :
    ∃ i, item = some i ∧ Describes i r ∧ Under keyPrefix r := by
  simp only [inventoryItem, bind_eq_ok, orElse_eq_ok, require_eq_ok, Bool.and_eq_true, bne_iff_ne] at h
  obtain ⟨i, rfl, key, hkey, -, ⟨hunder, hne⟩, etag, hetag, hcreate⟩ := h
  split at hcreate
  · rename_i record hrecord
    obtain rfl := Except.ok.inj hcreate
    obtain ⟨hk, ht, hsize, htime⟩ := create_ok hrecord
    obtain rfl := Json.str.inj hk
    obtain rfl := Json.str.inj ht
    refine ⟨i, rfl, ⟨?_, hetag, hsize, htime⟩, List.isPrefixOf_iff_prefix.mp hunder, hne⟩
    cases hi : i.key <;> simp_all [Json.str?]
  · cases hcreate

theorem inventoryItem_error {item : Option ListItem} {e : Exn} (h : inventoryItem keyPrefix item = .error e) :
    ∃ code, e = gatewayFailure code := by
  simp only [inventoryItem, bind_eq_error, orElse_eq_error, require_eq_error] at h
  obtain ⟨-, rfl⟩ | ⟨i, -, ⟨-, rfl⟩ | ⟨key, -, ⟨-, rfl⟩ | ⟨-, -, ⟨-, rfl⟩ | ⟨etag, -, hcreate⟩⟩⟩⟩ := h
  · exact ⟨_, rfl⟩
  · exact ⟨_, rfl⟩
  · exact ⟨_, rfl⟩
  · exact ⟨_, rfl⟩
  · split at hcreate
    · cases hcreate
    · exact ⟨_, (Except.error.inj hcreate).symm⟩

/-- The items of a page are all turned into records, within the bounds. -/
theorem inventoryItems_ok : ∀ {items : List (Option ListItem)} {count total : Nat} {added : List ObjectRecord},
    inventoryItems bounds keyPrefix items count total = .ok added → count ≤ bounds.maxObjects →
      total ≤ bounds.maxBytes →
        (∃ is, items = is.map some ∧ List.Forall₂ Describes is added) ∧ (∀ r ∈ added, Under keyPrefix r) ∧
          count + added.length ≤ bounds.maxObjects ∧ total + totalBytes added ≤ bounds.maxBytes := by
  intro items
  induction items with
  | nil =>
      intro count total added h hcount htotal
      obtain rfl := Except.ok.inj h
      exact ⟨⟨[], rfl, .nil⟩, by simp, hcount, htotal⟩
  | cons item items ih =>
      intro count total added h _ _
      simp only [inventoryItems, bind_eq_ok, require_eq_ok, decide_eq_true_eq, pure_eq_ok] at h
      obtain ⟨r, hitem, -, hcount, -, htotal, rest, hrest, rfl⟩ := h
      obtain ⟨i, rfl, hdescribes, hunder⟩ := inventoryItem_ok hitem
      obtain ⟨⟨is, rfl, hall⟩, hunders, hcounts, htotals⟩ := ih hrest hcount htotal
      refine ⟨⟨i :: is, rfl, .cons hdescribes hall⟩, ?_, ?_, ?_⟩
      · intro r' hr'
        rcases List.mem_cons.mp hr' with rfl | hr'
        · exact hunder
        · exact hunders r' hr'
      · rw [List.length_cons]
        omega
      · simp only [totalBytes, List.map_cons, List.sum_cons] at htotals ⊢
        omega

theorem inventoryItems_error : ∀ {items : List (Option ListItem)} {count total : Nat} {e : Exn},
    inventoryItems bounds keyPrefix items count total = .error e → ∃ code, e = gatewayFailure code := by
  intro items
  induction items with
  | nil => exact fun h => by cases h
  | cons item items ih =>
      intro count total e h
      simp only [inventoryItems, bind_eq_error, require_eq_error] at h
      obtain hitem | ⟨r, -, ⟨-, rfl⟩ | ⟨-, -, ⟨-, rfl⟩ | ⟨-, -, hrest | ⟨rest, -, hpure⟩⟩⟩⟩ := h
      · exact inventoryItem_error hitem
      · exact ⟨_, rfl⟩
      · exact ⟨_, rfl⟩
      · exact ih hrest
      · exact absurd hpure pure_ne_error

/-- What has been read so far is within the bounds. -/
structure Bounded (bounds : OperationBounds) (records : List ObjectRecord) : Prop where
  count : records.length ≤ bounds.maxObjects
  total : totalBytes records ≤ bounds.maxBytes

theorem totalBytes_append (xs ys : List ObjectRecord) : totalBytes (xs ++ ys) = totalBytes xs + totalBytes ys := by
  simp [totalBytes]

theorem inventoryPage_ok {token : Option Str} {seen : List Str} {records : List ObjectRecord} {page : Page}
    {out : List ObjectRecord × Option Str} (h : inventoryPage bounds keyPrefix token seen records page = .ok out)
    (hbounded : Bounded bounds records) :
    ∃ added, Lists page added ∧ (∀ r ∈ added, Under keyPrefix r) ∧ out.1 = records ++ added ∧ Bounded bounds out.1 ∧
      page.isTruncated = some out.2.isSome := by
  simp only [inventoryPage, bind_eq_ok, orElse_eq_ok] at h
  obtain ⟨contents, hcontents, added, hadded, truncated, htruncated, hend⟩ := h
  obtain ⟨⟨is, rfl, hall⟩, hunder, hcount, htotal⟩ := inventoryItems_ok hadded hbounded.count hbounded.total
  have hafter : Bounded bounds (records ++ added) :=
    ⟨by rwa [List.length_append], by rwa [totalBytes_append]⟩
  cases truncated with
  | false =>
      rw [if_neg Bool.false_ne_true, pure_eq_ok] at hend
      obtain rfl := hend
      exact ⟨added, ⟨is, hcontents, hall⟩, hunder, rfl, hafter, htruncated⟩
  | true =>
      simp only [if_true, bind_eq_ok, pure_eq_ok] at hend
      obtain ⟨next, -, -, -, rfl⟩ := hend
      exact ⟨added, ⟨is, hcontents, hall⟩, hunder, rfl, hafter, htruncated⟩

theorem inventoryPage_error {token : Option Str} {seen : List Str} {records : List ObjectRecord} {page : Page} {e : Exn}
    (h : inventoryPage bounds keyPrefix token seen records page = .error e) : ∃ code, e = gatewayFailure code := by
  simp only [inventoryPage, bind_eq_error, orElse_eq_error] at h
  obtain ⟨-, rfl⟩ | ⟨contents, -, hitems | ⟨added, -, ⟨-, rfl⟩ | ⟨truncated, -, hend⟩⟩⟩ := h
  · exact ⟨_, rfl⟩
  · exact inventoryItems_error hitems
  · exact ⟨_, rfl⟩
  · cases truncated with
    | false => exact absurd hend pure_ne_error
    | true =>
        simp only [if_true, bind_eq_error, orElse_eq_error, require_eq_error] at hend
        obtain ⟨-, rfl⟩ | ⟨next, -, ⟨-, rfl⟩ | ⟨-, -, hpure⟩⟩ := hend
        · exact ⟨_, rfl⟩
        · exact ⟨_, rfl⟩
        · exact absurd hpure pure_ne_error

end

/-! ### What comes from outside -/

/-- A call was interrupted. -/
def interrupted : Event Call Answer → Prop
  | ⟨.monotonic, .interrupt⟩ => True
  | ⟨.listObjects _ _, .interrupt⟩ => True
  | _ => False

/-- A failure that is not the gateway's: an interrupt, a clock that raises, the operation's own check. -/
inductive Outside (d : Deadline) (l : Log) : Exn → Prop where
  | interrupt (x : Event Call Answer) (hx : x ∈ l) (h : interrupted x) : Outside d l .interrupt
  | clock (h : (⟨.monotonic, .raised⟩ : Event Call Answer) ∈ l) : Outside d l .foreign
  | operation (started maxSeconds : Rat) (code : String) (h : d = .operation started maxSeconds) :
      Outside d l (.operation code false)

/-- What a listing raises. -/
def Raises (d : Deadline) (l : Log) (e : Exn) : Prop := (∃ code, e = gatewayFailure code) ∨ Outside d l e

section
variable {policy : CheckpointPolicy} {d : Deadline} {l l' : Log} {e : Exn}

theorem Raises.of_subset (h : Raises d l e) (hl : l ⊆ l') : Raises d l' e := by
  obtain h | h := h
  · exact .inl h
  · refine .inr ?_
    cases h with
    | interrupt x hx hi => exact .interrupt x (hl hx) hi
    | clock hx => exact .clock (hl hx)
    | operation started maxSeconds code hd => exact .operation started maxSeconds code hd

section
variable {started maxSeconds : Rat} {reading : Reply (Option Rat)}

theorem serviceReading_error (h : serviceReading started maxSeconds reading = .error e) :
    (reading = .interrupt ∧ e = .interrupt) ∨ ∃ code, e = gatewayFailure code := by
  unfold serviceReading at h
  split at h
  · exact .inl ⟨rfl, (Except.error.inj h).symm⟩
  · exact .inr ⟨_, (require_eq_error.mp h).2.symm⟩
  · exact .inr ⟨_, (Except.error.inj h).symm⟩

theorem operationReading_error (h : operationReading started maxSeconds reading = .error e) :
    (reading = .interrupt ∧ e = .interrupt) ∨ ∃ code, e = .operation code false := by
  unfold operationReading at h
  split at h
  · exact .inl ⟨rfl, (Except.error.inj h).symm⟩
  · exact .inr ⟨_, (require_eq_error.mp h).2.symm⟩
  · exact .inr ⟨_, (Except.error.inj h).symm⟩

theorem inventoryReading_error {started : Option Rat} {maxSeconds : Nat}
    (h : inventoryReading started maxSeconds reading = .error e) :
    (reading = .interrupt ∧ e = .interrupt) ∨ ∃ code, e = gatewayFailure code := by
  unfold inventoryReading at h
  split at h
  · exact .inl ⟨rfl, (Except.error.inj h).symm⟩
  · split at h
    · exact .inr ⟨_, (require_eq_error.mp h).2.symm⟩
    · exact .inr ⟨_, (Except.error.inj h).symm⟩
  · exact .inr ⟨_, (Except.error.inj h).symm⟩

end

/-- A check of a deadline reads the clock at most once. -/
theorem checkOperationDeadline_plays {r : Except Exn Unit} (h : Plays (checkOperationDeadline d) l r) :
    replies l = [] ∧ ∀ e, r = .error e → Raises d l e := by
  cases d with
  | none =>
      obtain ⟨rfl, rfl⟩ := plays_pure.mp h
      exact ⟨rfl, fun e he => by cases he⟩
  | service started maxSeconds =>
      obtain ⟨reading, l₁, rfl, hlift⟩ := plays_perform_bind.mp h
      obtain ⟨rfl, rfl⟩ := plays_lift.mp hlift
      refine ⟨rfl, fun e he => ?_⟩
      obtain ⟨rfl, rfl⟩ | hgateway := serviceReading_error he
      · exact .inr (.interrupt _ List.mem_cons_self trivial)
      · exact .inl hgateway
  | operation started maxSeconds =>
      obtain ⟨reading, l₁, rfl, hlift⟩ := plays_perform_bind.mp h
      obtain ⟨rfl, rfl⟩ := plays_lift.mp hlift
      refine ⟨rfl, fun e he => ?_⟩
      obtain ⟨rfl, rfl⟩ | ⟨code, rfl⟩ := operationReading_error he
      · exact .inr (.interrupt _ List.mem_cons_self trivial)
      · exact .inr (.operation started maxSeconds code rfl)

theorem checkInventoryDeadline_plays {started : Option Rat} {r : Except Exn Unit}
    (h : Plays (checkInventoryDeadline policy started) l r) :
    replies l = [] ∧ ∀ e, r = .error e → Raises d l e := by
  obtain ⟨reading, l₁, rfl, hlift⟩ := plays_perform_bind.mp h
  obtain ⟨rfl, rfl⟩ := plays_lift.mp hlift
  refine ⟨rfl, fun e he => ?_⟩
  obtain ⟨rfl, rfl⟩ | hgateway := inventoryReading_error he
  · exact .inr (.interrupt _ List.mem_cons_self trivial)
  · exact .inl hgateway

end

/-! ### Turns -/

section
variable {policy : CheckpointPolicy} {d : Deadline} {keyPrefix : Str} {started : Option Rat}

/-- One turn asks for one page at most, and goes on with what the page says. -/
theorem inventoryTurn_plays {left : Nat} {token : Option Str} {seen : List Str} {records : List ObjectRecord} {l : Log}
    {r : Except Exn (List ObjectRecord × Option Str)}
    (h : Plays (inventoryTurn policy d keyPrefix started left token seen records) l r) :
    (replies l).length ≤ 1 ∧ (∀ e, r = .error e → Raises d l e) ∧
      ∀ out, r = .ok out → left ≠ 0 ∧ ∃ page, replies l = [.ok (some page)] ∧
        inventoryPage policy.bounds keyPrefix token seen records page = .ok out := by
  obtain ⟨e, hlate, rfl⟩ | ⟨l₁, l₂, u, rfl, h₁, hrest⟩ := plays_bind.mp h
  · obtain ⟨hnone, hraises⟩ := checkInventoryDeadline_plays (d := d) hlate
    exact ⟨by rw [hnone]; exact Nat.zero_le 1, fun e' he => hraises e' (by rw [← Except.error.inj he]),
      fun out ho => by cases ho⟩
  have hnone₁ := (checkInventoryDeadline_plays (d := d) h₁).1
  obtain ⟨e, hlate, rfl⟩ | ⟨l₃, l₄, u', rfl, h₂, hrest⟩ := plays_bind.mp hrest
  · obtain ⟨hnone, hraises⟩ := checkOperationDeadline_plays hlate
    refine ⟨by rw [replies_append, hnone₁, hnone]; exact Nat.zero_le 1, fun e' he => ?_, fun out ho => by cases ho⟩
    exact (hraises e' (by rw [← Except.error.inj he])).of_subset (List.subset_append_right _ _)
  have hnone₂ := (checkOperationDeadline_plays h₂).1
  obtain ⟨(reply : Reply (Option Page)), l₅, rfl, hlisted⟩ := plays_perform_bind.mp hrest
  have hreplies : ∀ l₆, replies l₆ = [] →
      replies (l₁ ++ (l₃ ++ ⟨.listObjects keyPrefix token, reply⟩ :: l₆)) = [reply] := by
    intro l₆ h₆
    rw [replies_append, replies_append, hnone₁, hnone₂, List.nil_append, List.nil_append,
      show replies (⟨.listObjects keyPrefix token, reply⟩ :: l₆) = reply :: replies l₆ from rfl, h₆]
  have hin : ∀ {l₆ : Log} {e : Exn}, Raises d l₆ e →
      Raises d (l₁ ++ (l₃ ++ ⟨.listObjects keyPrefix token, reply⟩ :: l₆)) e := fun hraises =>
    hraises.of_subset fun x hx => List.mem_append_right _ (List.mem_append_right _ (List.mem_cons_of_mem _ hx))
  obtain ⟨e, he, rfl, rfl⟩ | ⟨page, hpage, hread⟩ := plays_lift_bind.mp hlisted
  · refine ⟨by rw [hreplies [] rfl]; exact Nat.le_refl 1, fun e' he' => ?_, fun out ho => by cases ho⟩
    obtain rfl := Except.error.inj he'
    cases reply with
    | ok page => cases he
    | raised =>
        rw [← Except.error.inj he]
        exact .inl ⟨_, rfl⟩
    | interrupt =>
        rw [← Except.error.inj he]
        exact .inr (.interrupt ⟨.listObjects keyPrefix token, .interrupt⟩
          (List.mem_append_right _ (List.mem_append_right _ List.mem_cons_self)) trivial)
  obtain rfl : reply = .ok page := by
    cases reply with
    | ok page' => rw [Except.ok.inj hpage]
    | raised => cases hpage
    | interrupt => cases hpage
  obtain ⟨e, hlate, rfl⟩ | ⟨l₇, l₈, u'', rfl, h₃, hread'⟩ := plays_bind.mp hread
  · obtain ⟨hnone, hraises⟩ := checkOperationDeadline_plays hlate
    refine ⟨by rw [hreplies _ hnone]; exact Nat.le_refl 1, fun e' he => ?_, fun out ho => by cases ho⟩
    exact hin (hraises e' (by rw [← Except.error.inj he]))
  have hnone₃ := (checkOperationDeadline_plays h₃).1
  obtain ⟨e, hlate, rfl⟩ | ⟨l₉, l₁₀, u₃, rfl, h₄, hpages⟩ := plays_bind.mp hread'
  · obtain ⟨hnone, hraises⟩ := checkInventoryDeadline_plays (d := d) hlate
    refine ⟨by rw [hreplies _ (by rw [replies_append, hnone₃, hnone]; rfl)]; exact Nat.le_refl 1, fun e' he => ?_,
      fun out ho => by cases ho⟩
    exact hin ((hraises e' (by rw [← Except.error.inj he])).of_subset (List.subset_append_right _ _))
  have hnone₄ := (checkInventoryDeadline_plays (d := d) h₄).1
  have hend : ∀ {l₁₁ : Log}, l₁₁ = [] → replies (l₇ ++ (l₉ ++ l₁₁)) = [] := by
    rintro _ rfl
    rw [replies_append, replies_append, hnone₃, hnone₄]
    rfl
  obtain ⟨e, he, rfl, rfl⟩ | ⟨page', hpage', hlast⟩ := plays_lift_bind.mp hpages
  · refine ⟨by rw [hreplies _ (hend rfl)]; exact Nat.le_refl 1, fun e' he' => ?_, fun out ho => by cases ho⟩
    obtain rfl := Except.error.inj he'
    unfold pageOf at he
    split at he
    · rw [← Except.error.inj he]
      exact .inl ⟨_, rfl⟩
    · rw [← (orElse_eq_error.mp he).2]
      exact .inl ⟨_, rfl⟩
  unfold pageOf at hpage'
  split at hpage'
  · cases hpage'
  rename_i hleft
  obtain rfl := orElse_eq_ok.mp hpage'
  obtain ⟨rfl, rfl⟩ := plays_lift.mp hlast
  refine ⟨by rw [hreplies _ (hend rfl)]; exact Nat.le_refl 1, fun e' he' => ?_, fun out ho => ?_⟩
  · exact .inl (inventoryPage_error he')
  · exact ⟨hleft, page', hreplies _ (hend rfl), ho⟩

/-- Every page but the last says that it was cut off, and the last that it was not. -/
def Finished : List Page → Prop
  | [] => False
  | [page] => page.isTruncated = some false
  | page :: pages => page.isTruncated = some true ∧ Finished pages

theorem Finished.cons {page : Page} {pages : List Page} (h : page.isTruncated = some true) (hpages : Finished pages) :
    Finished (page :: pages) := by
  cases pages with
  | nil => exact hpages.elim
  | cons next pages => exact ⟨h, hpages⟩

/-- These pages list what comes after the records so far. -/
structure Reads (keyPrefix : Str) (pages : List Page) (records after : List ObjectRecord) : Prop where
  finished : Finished pages
  lists : ∃ listed, List.Forall₂ Lists pages listed ∧ after = records ++ listed.flatten
  under : ∀ r ∈ after, Under keyPrefix r

/-- The induction over the turns: `left` is how many pages may still be read. -/
theorem inventoryPages_plays : ∀ {left : Nat} {token : Option Str} {seen : List Str} {records : List ObjectRecord}
    {l : Log} {r : Except Exn (List ObjectRecord)}, Bounded policy.bounds records →
    (∀ r ∈ records, Under keyPrefix r) →
    Plays (inventoryPages policy d keyPrefix started left token seen records) l r →
      (replies l).length ≤ left + 1 ∧ (∀ e, r = .error e → Raises d l e) ∧
        ∀ after, r = .ok after → Bounded policy.bounds after ∧
          ∃ pages, replies l = pages.map (fun page => .ok (some page)) ∧ Reads keyPrefix pages records after := by
  intro left
  induction left with
  | zero =>
      intro token seen records l r _ _ h
      obtain ⟨e, hfailed, rfl⟩ | ⟨l₁, l₂, out, rfl, hturn, -⟩ := plays_bind.mp h
      · obtain ⟨hone, hraises, -⟩ := inventoryTurn_plays hfailed
        exact ⟨hone, fun e' he => hraises e' (by rw [← Except.error.inj he]), fun after ha => by cases ha⟩
      · exact absurd rfl ((inventoryTurn_plays hturn).2.2 out rfl).1
  | succ left ih =>
      intro token seen records l r hbounded hunder h
      obtain ⟨e, hfailed, rfl⟩ | ⟨l₁, l₂, out, rfl, hturn, hrest⟩ := plays_bind.mp h
      · obtain ⟨hone, hraises, -⟩ := inventoryTurn_plays hfailed
        exact ⟨by omega, fun e' he => hraises e' (by rw [← Except.error.inj he]), fun after ha => by cases ha⟩
      obtain ⟨page, hreplies, hpage⟩ := ((inventoryTurn_plays hturn).2.2 out rfl).2
      obtain ⟨added, hlists, hadded, hrecords, hafter, htruncated⟩ := inventoryPage_ok hpage hbounded
      have hunders : ∀ r ∈ out.1, Under keyPrefix r := by
        intro r hr
        rw [hrecords] at hr
        rcases List.mem_append.mp hr with hr | hr
        · exact hunder r hr
        · exact hadded r hr
      obtain ⟨gathered, next⟩ := out
      rw [replies_append, hreplies]
      cases next with
      | none =>
          obtain ⟨rfl, rfl⟩ := plays_pure.mp hrest
          refine ⟨by simp [replies], fun e he => (by cases he), fun after ha => ?_⟩
          obtain rfl := Except.ok.inj ha
          refine ⟨hafter, [page], rfl, htruncated, ⟨[added], .cons hlists .nil, ?_⟩, hunders⟩
          simpa using hrecords
      | some token' =>
          obtain ⟨hcount, hraises, hok⟩ := ih hafter hunders hrest
          refine ⟨by rw [List.length_append, List.length_singleton]; omega, fun e he => ?_, fun after ha => ?_⟩
          · exact (hraises e he).of_subset (List.subset_append_right l₁ l₂)
          · obtain ⟨hbounds, pages, hpages, hreads⟩ := hok after ha
            obtain ⟨listed, hlisted, rfl⟩ := hreads.lists
            refine ⟨hbounds, page :: pages, by rw [hpages]; rfl, hreads.finished.cons htruncated,
              ⟨added :: listed, .cons hlists hlisted, ?_⟩, hreads.under⟩
            rw [List.flatten_cons, ← List.append_assoc, ← hrecords]

end

/-! ### The inventory -/

/-- What an inventory is, of the pages that were listed. -/
structure Complete (policy : CheckpointPolicy) (keyPrefix : Str) (l : Log) (records : List ObjectRecord) : Prop where
  pages : ∃ pages, replies l = pages.map (fun page => .ok (some page)) ∧ Finished pages ∧
    ∃ listed, List.Forall₂ Lists pages listed ∧ records.Perm listed.flatten
  ordered : KeyOrdered records
  under : ∀ r ∈ records, Under keyPrefix r
  bounded : Bounded policy.bounds records

theorem canonicalRecords_error {records : List ObjectRecord} {e : Exn} (h : canonicalRecords records = .error e) :
    ∃ code, e = .record code := by
  simp only [canonicalRecords, bind_eq_error, require_eq_error] at h
  obtain ⟨-, rfl⟩ | ⟨-, -, hpure⟩ := h
  · exact ⟨_, rfl⟩
  · exact absurd hpure pure_ne_error

section
variable {policy : CheckpointPolicy} {d : Deadline} {keyPrefix : Str}

theorem inventory_plays {l : Log} {r : Except Exn (List ObjectRecord)}
    (h : Plays (inventory policy d keyPrefix) l r) :
    (replies l).length ≤ policy.bounds.maxPages + 1 ∧
      (∀ records, r = .ok records → Complete policy keyPrefix l records) ∧ ∀ e, r = .error e → Raises d l e := by
  obtain ⟨e, hunder, rfl, rfl⟩ | ⟨u, -, h₁⟩ := plays_lift_bind.mp h
  · refine ⟨Nat.zero_le _, fun records hr => (by cases hr), fun e' he => ?_⟩
    obtain rfl := Except.error.inj he
    split at hunder
    · cases hunder
    · exact .inl ⟨_, (Except.error.inj hunder).symm⟩
  obtain ⟨(reading : Reply (Option Rat)), l₁, rfl, h₂⟩ := plays_perform_bind.mp h₁
  have hclock : replies (⟨.monotonic, reading⟩ :: l₁) = replies l₁ := rfl
  rw [hclock]
  obtain ⟨e, hreading, rfl, rfl⟩ | ⟨started, -, h₃⟩ := plays_lift_bind.mp h₂
  · refine ⟨Nat.zero_le _, fun records hr => (by cases hr), fun e' he => ?_⟩
    obtain rfl := Except.error.inj he
    cases reading with
    | ok started => cases hreading
    | raised =>
        rw [← Except.error.inj hreading]
        exact .inr (.clock List.mem_cons_self)
    | interrupt =>
        rw [← Except.error.inj hreading]
        exact .inr (.interrupt _ List.mem_cons_self trivial)
  have hin : ∀ {e : Exn}, Raises d l₁ e → Raises d (⟨.monotonic, reading⟩ :: l₁) e := fun hraises =>
    hraises.of_subset (List.subset_cons_self _ _)
  have hstart : Bounded policy.bounds [] := ⟨Nat.zero_le _, Nat.zero_le _⟩
  obtain ⟨e, hfailed, rfl⟩ | ⟨l₂, l₃, gathered, rfl, hpages, hsort⟩ := plays_bind.mp h₃
  · obtain ⟨hcount, hraises, -⟩ := inventoryPages_plays hstart (by simp) hfailed
    exact ⟨hcount, fun records hr => (by cases hr), fun e' he => hin (hraises e' (by rw [← Except.error.inj he]))⟩
  obtain ⟨hcount, -, hok⟩ := inventoryPages_plays hstart (by simp) hpages
  obtain ⟨hbounded, pages, hreplies, hreads⟩ := hok gathered rfl
  obtain ⟨rfl, rfl⟩ := plays_lift.mp hsort
  rw [List.append_nil]
  refine ⟨hcount, fun records hr => ?_, fun e he => ?_⟩
  · unfold asGateway at hr
    split at hr
    · rename_i records' hcanonical
      obtain rfl := Except.ok.inj hr
      obtain ⟨hsorted, hordered⟩ := canonicalRecords_eq_ok.mp hcanonical
      have hperm : records'.Perm gathered := hsorted ▸ List.perm_insertionSort _ gathered
      obtain ⟨listed, hlisted, rfl⟩ := hreads.lists
      refine ⟨⟨pages, hreplies, hreads.finished, listed, hlisted, hperm⟩, hordered,
        fun r hr' => hreads.under r (hperm.mem_iff.mp hr'), ?_, ?_⟩
      · rw [hperm.length_eq]
        exact hbounded.count
      · rw [totalBytes, (hperm.map _).sum_eq]
        exact hbounded.total
    · cases hr
    · cases hr
  · unfold asGateway at he
    split at he
    · cases he
    · exact .inl ⟨_, (Except.error.inj he).symm⟩
    · rename_i hcode
      obtain ⟨code, rfl⟩ := canonicalRecords_error hcode
      rename_i hne
      exact absurd rfl (hne code)

/-- **An inventory is complete or fails**, whatever the store answers. -/
theorem inventory_complete {W : Type} (answer : W → (e : Call) → Answer e × W) (w : W) (policy : CheckpointPolicy)
    (d : Deadline) (keyPrefix : Str) :
    let run := record answer (inventory policy d keyPrefix) w
    (replies run.1).length ≤ policy.bounds.maxPages + 1 ∧
      (∀ records, run.2 = .ok records → Complete policy keyPrefix run.1 records) ∧
        ∀ e, run.2 = .error e → Raises d run.1 e :=
  inventory_plays (record_plays answer _ w)

end

end Checkpoints
