/-
What `dumps` writes, `loads` reads.

`dumps` sorts the members of every object before it prints, so what comes back is not the
value but the value sorted.  Nothing a reader asks of a dictionary depends on the order of
its members: `get_sortedMembers` and `hasExactly_sortedMembers` say so for the two
questions a strict reader asks, and `dumps_sortKeys` for the third, whether the text was
canonical.
-/
import DataEngLab.Lib.JsonRoundTrip

namespace Lib

/-! ### Sorted members -/

@[simp] theorem sortMembers_eq_map (kvs : List (Str × Json)) :
    sortMembers kvs = kvs.map fun kv => (kv.1, kv.2.sortKeys) := by
  induction kvs with
  | nil => rfl
  | cons kv kvs ih => simp [sortMembers, ih]

@[simp] theorem sortElems_eq_map (xs : List Json) : sortElems xs = xs.map Json.sortKeys := by
  induction xs with
  | nil => rfl
  | cons x xs ih => simp [sortElems, ih]

/-- The members `sort_keys=True` prints, their values sorted as well. -/
def sortedMembers (kvs : List (Str × Json)) : List (Str × Json) :=
  (kvs.map fun kv => (kv.1, kv.2.sortKeys)).insertionSort fun a b => a.1 ≤ b.1

theorem sortKeys_obj (kvs : List (Str × Json)) :
    (Json.obj kvs).sortKeys = .obj (sortedMembers kvs) := by
  rw [Json.sortKeys, sortMembers_eq_map]
  rfl

theorem sortKeys_arr (xs : List Json) : (Json.arr xs).sortKeys = .arr (xs.map Json.sortKeys) := by
  rw [Json.sortKeys, sortElems_eq_map]

theorem sortedMembers_perm (kvs : List (Str × Json)) :
    (sortedMembers kvs).Perm (kvs.map fun kv => (kv.1, kv.2.sortKeys)) :=
  List.perm_insertionSort _ _

theorem sortedMembers_keys (kvs : List (Str × Json)) :
    ((sortedMembers kvs).map Prod.fst).Perm (kvs.map Prod.fst) := by
  have h := (sortedMembers_perm kvs).map Prod.fst
  simpa [List.map_map, Function.comp_def] using h

theorem mem_sortedMembers {kvs : List (Str × Json)} {kv : Str × Json} :
    kv ∈ sortedMembers kvs ↔ ∃ v, (kv.1, v) ∈ kvs ∧ v.sortKeys = kv.2 := by
  rw [(sortedMembers_perm kvs).mem_iff, List.mem_map]
  constructor
  · rintro ⟨⟨k, v⟩, hm, rfl⟩; exact ⟨v, hm, rfl⟩
  · rintro ⟨v, hm, hv⟩; exact ⟨(kv.1, v), hm, by simp [hv]⟩

/-- Sorting the members of a value's containers keeps what its own members have. -/
theorem sortKeys_induction {P : Json → Prop} {Q : Json → Prop}
    (hatom : ∀ v, v.nesting = 0 → P v → Q v.sortKeys)
    (harr : ∀ xs, P (.arr xs) → (∀ x ∈ xs, P x ∧ Q x.sortKeys) → Q (.arr (xs.map Json.sortKeys)))
    (hobj : ∀ kvs, P (.obj kvs) → (∀ kv ∈ kvs, P kv.2 ∧ Q kv.2.sortKeys) →
      Q (.obj (sortedMembers kvs)))
    (hx : ∀ xs, P (.arr xs) → ∀ x ∈ xs, P x) (hkv : ∀ kvs, P (.obj kvs) → ∀ kv ∈ kvs, P kv.2) :
    ∀ v, P v → Q v.sortKeys := by
  suffices ∀ d v, v.nesting ≤ d → P v → Q v.sortKeys from fun v => this _ v le_rfl
  intro d
  induction d with
  | zero => intro v hn hp; exact hatom v (by omega) hp
  | succ d ih =>
      intro v hn hp
      by_cases ha : v.nesting = 0
      · exact hatom v ha hp
      cases v with
      | arr xs =>
          simp only [Json.nesting, Nat.add_le_add_iff_right, nestingElems_le] at hn
          rw [sortKeys_arr]
          exact harr xs hp fun x hm => ⟨hx xs hp x hm, ih x (hn x hm) (hx xs hp x hm)⟩
      | obj kvs =>
          simp only [Json.nesting, Nat.add_le_add_iff_right, nestingMembers_le] at hn
          rw [sortKeys_obj]
          exact hobj kvs hp fun kv hm => ⟨hkv kvs hp kv hm, ih kv.2 (hn kv hm) (hkv kvs hp kv hm)⟩
      | _ => simp [Json.nesting] at ha

theorem sortKeys_atom {v : Json} (h : v.nesting = 0) : v.sortKeys = v := by
  cases v with
  | arr xs => simp [Json.nesting] at h
  | obj kvs => simp [Json.nesting] at h
  | _ => rfl

theorem Json.Plain.sortKeys {v : Json} (h : v.Plain) : v.sortKeys.Plain := by
  refine sortKeys_induction (P := Json.Plain) (Q := Json.Plain) ?_ ?_ ?_ ?_ ?_ v h
  · intro v hn hp; rwa [sortKeys_atom hn]
  · intro xs _ hall
    simp only [Json.Plain, plainElems_iff, List.mem_map, forall_exists_index, and_imp,
      forall_apply_eq_imp_iff₂]
    exact fun x hx => (hall x hx).2
  · intro kvs hp hall
    simp only [Json.Plain, plainMembers_iff] at hp ⊢
    refine ⟨(sortedMembers_keys kvs).nodup_iff.mpr hp.1, fun kv hkv => ?_⟩
    obtain ⟨v, hm, hv⟩ := mem_sortedMembers.mp hkv
    refine ⟨(hp.2 _ hm).1, ?_⟩
    rw [← hv]
    exact (hall _ hm).2
  · intro xs hp; simpa only [Json.Plain, plainElems_iff] using hp
  · intro kvs hp kv hkv
    simp only [Json.Plain, plainMembers_iff] at hp
    exact (hp.2 kv hkv).2

theorem intsFit_sortKeys {v : Json} (h : v.intsFit = true) : v.sortKeys.intsFit = true := by
  refine sortKeys_induction (P := (·.intsFit = true)) (Q := (·.intsFit = true)) ?_ ?_ ?_ ?_ ?_ v h
  · intro v hn hp; rwa [sortKeys_atom hn]
  · intro xs _ hall
    simp only [Json.intsFit, elemsFit_iff, List.mem_map, forall_exists_index, and_imp,
      forall_apply_eq_imp_iff₂]
    exact fun x hx => (hall x hx).2
  · intro kvs _ hall
    simp only [Json.intsFit, membersFit_iff]
    intro kv hkv
    obtain ⟨v, hm, hv⟩ := mem_sortedMembers.mp hkv
    rw [← hv]
    exact (hall _ hm).2
  · intro xs hp; simpa only [Json.intsFit, elemsFit_iff] using hp
  · intro kvs hp; simpa only [Json.intsFit, membersFit_iff] using hp

theorem nesting_sortKeys_le {v : Json} {d : Nat} (h : v.nesting ≤ d) : v.sortKeys.nesting ≤ d := by
  induction d generalizing v with
  | zero => rwa [sortKeys_atom (by omega)]
  | succ d ih =>
      cases v with
      | arr xs =>
          simp only [Json.nesting, Nat.add_le_add_iff_right, nestingElems_le] at h
          rw [sortKeys_arr]
          simp only [Json.nesting, Nat.add_le_add_iff_right, nestingElems_le, List.mem_map,
            forall_exists_index, and_imp, forall_apply_eq_imp_iff₂]
          exact fun x hx => ih (h x hx)
      | obj kvs =>
          simp only [Json.nesting, Nat.add_le_add_iff_right, nestingMembers_le] at h
          rw [sortKeys_obj]
          simp only [Json.nesting, Nat.add_le_add_iff_right, nestingMembers_le]
          intro kv hkv
          obtain ⟨v, hm, hv⟩ := mem_sortedMembers.mp hkv
          rw [← hv]
          exact ih (h _ hm)
      | _ => exact h

/-- Members with distinct keys print alike in any order. -/
theorem sortedMembers_eq_of_perm {kvs kvs' : List (Str × Json)} (h : kvs.Perm kvs')
    (hnd : (kvs.map Prod.fst).Nodup) : sortedMembers kvs = sortedMembers kvs' := by
  have hperm : (sortedMembers kvs).Perm (sortedMembers kvs') :=
    (sortedMembers_perm kvs).trans ((h.map _).trans (sortedMembers_perm kvs').symm)
  have hkeys : ((sortedMembers kvs).map Prod.fst).Nodup := (sortedMembers_keys kvs).nodup_iff.mpr hnd
  refine hperm.eq_of_pairwise (fun a b ha hb hab hba => ?_) (List.pairwise_insertionSort _ _)
    (List.pairwise_insertionSort _ _)
  exact List.inj_on_of_nodup_map hkeys ha (hperm.mem_iff.mpr hb) (le_antisymm hab hba)

/-- Sorted members are in the order a second sort leaves alone. -/
theorem sortedMembers_idem {kvs : List (Str × Json)}
    (h : ∀ kv ∈ kvs, kv.2.sortKeys.sortKeys = kv.2.sortKeys) :
    sortedMembers (sortedMembers kvs) = sortedMembers kvs := by
  have hmap : (sortedMembers kvs).map (fun kv => (kv.1, kv.2.sortKeys)) = sortedMembers kvs := by
    conv_rhs => rw [← List.map_id (sortedMembers kvs)]
    refine List.map_congr_left fun kv hkv => ?_
    obtain ⟨v, hm, hv⟩ := mem_sortedMembers.mp hkv
    rw [← hv, h _ hm, hv]
    rfl
  have hsorted : (sortedMembers kvs).Pairwise fun a b => a.1 ≤ b.1 :=
    List.pairwise_insertionSort _ _
  conv_lhs => rw [sortedMembers]
  rw [hmap]
  exact List.Pairwise.insertionSort_eq hsorted

theorem sortKeys_idem (v : Json) : v.sortKeys.sortKeys = v.sortKeys := by
  refine sortKeys_induction (P := fun _ => True) (Q := fun w => w.sortKeys = w)
    ?_ ?_ ?_ (fun _ _ _ _ => trivial) (fun _ _ _ _ => trivial) v trivial
  · intro v hn _; rw [sortKeys_atom hn, sortKeys_atom hn]
  · intro xs _ hall
    rw [sortKeys_arr, List.map_map]
    exact congrArg Json.arr (List.map_congr_left fun x hx => (hall x hx).2)
  · intro kvs _ hall
    rw [sortKeys_obj, sortedMembers_idem fun kv hkv => (hall kv hkv).2]

/-! ### Looking a key up -/

theorem get_map (k : String) (kvs : List (Str × Json)) :
    Json.get k (kvs.map fun kv => (kv.1, kv.2.sortKeys)) = (Json.get k kvs).map Json.sortKeys := by
  induction kvs with
  | nil => rfl
  | cons kv kvs ih =>
      obtain ⟨k', v⟩ := kv
      simp only [List.map_cons, Json.get]
      split
      · rfl
      · exact ih

theorem get_mem {k : String} {v : Json} : ∀ {kvs : List (Str × Json)},
    Json.get k kvs = some v → (lit k, v) ∈ kvs := by
  intro kvs
  induction kvs with
  | nil => intro h; simp [Json.get] at h
  | cons kv kvs ih =>
      intro h
      obtain ⟨k', w⟩ := kv
      simp only [Json.get] at h
      split at h
      · rename_i hk
        simp only [Option.some.injEq] at h
        subst hk h
        simp
      · exact List.mem_cons_of_mem _ (ih h)

theorem get_of_mem {k : String} {v : Json} : ∀ {kvs : List (Str × Json)},
    (kvs.map Prod.fst).Nodup → (lit k, v) ∈ kvs → Json.get k kvs = some v := by
  intro kvs
  induction kvs with
  | nil => intro _ h; simp at h
  | cons kv kvs ih =>
      intro hn hm
      obtain ⟨k', w⟩ := kv
      simp only [List.map_cons, List.nodup_cons] at hn
      simp only [Json.get]
      rcases List.mem_cons.mp hm with heq | hrest
      · cases heq; rw [if_pos rfl]
      · have hne : k' ≠ lit k := by
          rintro rfl
          exact hn.1 (List.mem_map.mpr ⟨_, hrest, rfl⟩)
        rw [if_neg hne, ih hn.2 hrest]

theorem get_perm {k : String} {kvs kvs' : List (Str × Json)} (h : kvs.Perm kvs')
    (hn : (kvs.map Prod.fst).Nodup) : Json.get k kvs = Json.get k kvs' := by
  have hn' : (kvs'.map Prod.fst).Nodup := (h.map Prod.fst).nodup_iff.mp hn
  rcases hk : Json.get k kvs with _ | v
  · rcases hk' : Json.get k kvs' with _ | v'
    · rfl
    · rw [get_of_mem hn (h.mem_iff.mpr (get_mem hk'))] at hk
      simp at hk
  · exact (get_of_mem hn' (h.mem_iff.mp (get_mem hk))).symm

/-- A key of a dictionary that was printed and read has its value, sorted. -/
theorem get_sortedMembers {kvs : List (Str × Json)} (hn : (kvs.map Prod.fst).Nodup) (k : String) :
    Json.get k (sortedMembers kvs) = (Json.get k kvs).map Json.sortKeys := by
  rw [get_perm (sortedMembers_perm kvs)
    ((sortedMembers_keys kvs).nodup_iff.mpr hn), get_map]

theorem hasExactly_sortedMembers {kvs : List (Str × Json)} (hn : (kvs.map Prod.fst).Nodup)
    (fields : List String) : Json.hasExactly fields (sortedMembers kvs) = Json.hasExactly fields kvs := by
  have hlen : (sortedMembers kvs).length = kvs.length := by
    have := (sortedMembers_perm kvs).length_eq
    simpa using this
  simp only [Json.hasExactly, hlen, get_sortedMembers hn, Option.isSome_map]

/-! ### Objects with named fields -/

/-- The members of an object from its fields. -/
def members (fields : List (String × Json)) : List (Str × Json) := fields.map fun f => (lit f.1, f.2)

theorem get_members (k : String) (fields : List (String × Json)) :
    Json.get k (members fields) = fields.lookup k := by
  induction fields with
  | nil => rfl
  | cons f fields ih =>
      obtain ⟨k', v⟩ := f
      simp only [members, List.map_cons, Json.get, List.lookup_cons] at ih ⊢
      by_cases hk : k = k'
      · simp [hk]
      · have hne : ¬ k' = k := fun hc => hk hc.symm
        have hbeq : (k == k') = false := by simpa using hk
        simp only [lit_inj, if_neg hne, hbeq]
        exact ih

theorem members_keys_nodup {fields : List (String × Json)} (h : (fields.map Prod.fst).Nodup) :
    ((members fields).map Prod.fst).Nodup := by
  have hmap : (members fields).map Prod.fst = (fields.map Prod.fst).map lit := by
    simp [members, List.map_map, Function.comp_def]
  rw [hmap]
  exact h.map fun a b hab => lit_inj.mp hab

/-- A field of an object after its keys were sorted. -/
theorem get_sorted_members {fields : List (String × Json)} (hn : (fields.map Prod.fst).Nodup)
    (k : String) : Json.get k (sortedMembers (members fields)) = (fields.lookup k).map Json.sortKeys := by
  rw [get_sortedMembers (members_keys_nodup hn), get_members]

theorem hasExactly_sorted_members {fields : List (String × Json)} (hn : (fields.map Prod.fst).Nodup) :
    Json.hasExactly (fields.map Prod.fst) (sortedMembers (members fields)) = true := by
  rw [hasExactly_sortedMembers (members_keys_nodup hn)]
  simp only [Json.hasExactly, members, List.length_map, beq_self_eq_true, Bool.true_and,
    List.all_eq_true]
  intro k hk
  have := get_members k fields
  simp only [members] at this
  rw [this]
  obtain ⟨f, hf, rfl⟩ := List.mem_map.mp hk
  exact List.lookup_isSome_iff.mpr ⟨f, hf, by simp⟩

theorem joined_lit (s : String) : Str.Joined (lit s) := by
  have hlt : ∀ c ∈ lit s, c < 256 := by
    intro c hc
    obtain ⟨b, -, rfl⟩ := List.mem_map.mp hc
    exact b.toNat_lt
  generalize lit s = t at hlt
  induction t with
  | nil => trivial
  | cons c t ih =>
      cases t with
      | nil => have := hlt c (by simp); show c < 0x110000; omega
      | cons d t =>
          refine ⟨by have := hlt c (by simp); omega, ?_, ih fun x hx => hlt x (List.mem_cons_of_mem c hx)⟩
          rintro ⟨hhigh, -⟩
          have := hlt c (by simp)
          simp only [isHighSurrogate, Bool.and_eq_true, decide_eq_true_eq] at hhigh
          omega

theorem plain_members {fields : List (String × Json)} (hn : (fields.map Prod.fst).Nodup)
    (hv : ∀ f ∈ fields, f.2.Plain) : (Json.obj (members fields)).Plain := by
  simp only [Json.Plain, plainMembers_iff]
  refine ⟨members_keys_nodup hn, ?_⟩
  intro kv hkv
  obtain ⟨f, hf, rfl⟩ := List.mem_map.mp hkv
  exact ⟨joined_lit f.1, hv f hf⟩

/-! ### Text and bytes -/

theorem loads_print (h : Hooks) {v : Json} (hp : v.Plain) (hf : v.intsFit = true)
    (hn : v.nesting ≤ nestingLimit) : loads h v.print = .ok v := by
  have hscan := scanValue_print h nestingLimit v [] hp hf hn trivial
  have hskip := skipWs_print hp []
  obtain ⟨c, t, hc, hs⟩ := print_head hp
  rw [List.append_nil] at hscan hskip
  unfold loads
  rw [hc] at hscan hskip ⊢
  split
  · rename_i heq
    simp only [List.cons.injEq] at heq
    exact absurd heq.1 hs.ne.2.2.2
  · rw [hskip, hscan]
    rfl

theorem dumps_eq_some {v : Json} {s : Str} :
    dumps v = some s ↔ v.intsFit = true ∧ v.sortKeys.print = s := by
  unfold dumps
  split <;> simp_all

/-- **What was dumped is loaded, with the members sorted.** -/
theorem loads_dumps (h : Hooks) {v : Json} {s : Str} (hp : v.Plain)
    (hn : v.nesting ≤ nestingLimit) (hd : dumps v = some s) : loads h s = .ok v.sortKeys := by
  obtain ⟨hf, rfl⟩ := dumps_eq_some.mp hd
  exact loads_print h hp.sortKeys (intsFit_sortKeys hf) (nesting_sortKeys_le hn)

theorem dumps_sortKeys {v : Json} {s : Str} (hd : dumps v = some s) :
    dumps v.sortKeys = some s := by
  obtain ⟨hf, rfl⟩ := dumps_eq_some.mp hd
  exact dumps_eq_some.mpr ⟨intsFit_sortKeys hf, by rw [sortKeys_idem]⟩

theorem escapeUnit_ascii (u : Nat) : ∀ d ∈ escapeUnit u, d < 128 := by
  have hhex : ∀ k : Nat, hexDigit (k % 16) < 128 := by
    intro k
    unfold hexDigit
    split <;> omega
  intro d hd
  simp only [escapeUnit, List.mem_cons, List.not_mem_nil, or_false] at hd
  rcases hd with rfl | rfl | rfl | rfl | rfl | rfl <;> first | omega | exact hhex _

theorem escapeChar_ascii {c : Nat} (h : c < 0x110000) : ∀ d ∈ escapeChar c, d < 128 := by
  unfold escapeChar
  intro d hd
  split at hd
  · simp at hd; omega
  split at hd
  · simp at hd; omega
  split at hd
  · simp at hd; omega
  split at hd
  · simp at hd; omega
  split at hd
  · simp at hd; omega
  split at hd
  · simp at hd; omega
  split at hd
  · simp at hd; omega
  split at hd
  · simp at hd; omega
  split at hd
  · exact escapeUnit_ascii _ d hd
  · rcases List.mem_append.mp hd with h | h <;> exact escapeUnit_ascii _ d h

theorem Str.Joined.lt {s : Str} (h : Str.Joined s) : ∀ c ∈ s, c < 0x110000 := by
  induction s with
  | nil => simp
  | cons c s ih =>
      intro d hd
      rcases List.mem_cons.mp hd with rfl | hd'
      · exact h.head
      · exact ih h.tail d hd'

theorem printStr_ascii {s : Str} (h : Str.Joined s) : ∀ c ∈ printStr s, c < 128 := by
  intro c hc
  simp only [printStr, List.cons_append, List.mem_cons, List.mem_append, List.mem_flatMap,
    List.not_mem_nil, or_false] at hc
  rcases hc with rfl | ⟨d, hd, hc⟩ | rfl
  · omega
  · exact escapeChar_ascii (h.lt d hd) c hc
  · omega

theorem printInt_ascii (n : Int) : ∀ c ∈ printInt n, c < 128 := by
  have hdec : ∀ c ∈ decDigits n.natAbs, c < 128 := by
    intro c hc
    have := decDigits_digits _ c hc
    simp only [isDigit, Bool.and_eq_true, decide_eq_true_eq] at this
    omega
  unfold printInt
  split
  · intro c hc
    rcases List.mem_cons.mp hc with rfl | hc'
    · omega
    · exact hdec c hc'
  · exact hdec

theorem printElems_ascii {xs : List Json} (h : ∀ x ∈ xs, ∀ c ∈ x.print, c < 128) :
    ∀ c ∈ printElems xs, c < 128 := by
  induction xs with
  | nil => simp [printElems]
  | cons x xs ih =>
      intro c hc
      simp only [printElems, List.cons_append, List.mem_cons, List.mem_append] at hc
      rcases hc with rfl | hc | hc
      · omega
      · exact h x (by simp) c hc
      · exact ih (fun y hy => h y (List.mem_cons_of_mem _ hy)) c hc

theorem printMembers_ascii {kvs : List (Str × Json)}
    (h : ∀ kv ∈ kvs, Str.Joined kv.1 ∧ ∀ c ∈ kv.2.print, c < 128) :
    ∀ c ∈ printMembers kvs, c < 128 := by
  induction kvs with
  | nil => simp [printMembers]
  | cons kv kvs ih =>
      intro c hc
      simp only [printMembers, List.cons_append, List.append_assoc, List.mem_cons,
        List.mem_append] at hc
      rcases hc with rfl | hc | rfl | hc | hc
      · omega
      · exact printStr_ascii (h kv (by simp)).1 c hc
      · omega
      · exact (h kv (by simp)).2 c hc
      · exact ih (fun y hy => h y (List.mem_cons_of_mem _ hy)) c hc

/-- `ensure_ascii=True` -/
theorem print_ascii : ∀ (d : Nat) (v : Json), v.nesting ≤ d → v.Plain → ∀ c ∈ v.print, c < 128 := by
  intro d
  induction d with
  | zero =>
      intro v hn hp
      cases v with
      | null => decide
      | bool b => cases b <;> decide
      | int n => rw [Json.print]; exact printInt_ascii n
      | float t => exact absurd hp (by simp [Json.Plain])
      | str s => rw [Json.print]; exact printStr_ascii (by simpa [Json.Plain] using hp)
      | arr xs => simp [Json.nesting] at hn
      | obj kvs => simp [Json.nesting] at hn
  | succ d ih =>
      intro v hn hp
      cases v with
      | arr xs =>
          simp only [Json.nesting, Nat.add_le_add_iff_right, nestingElems_le] at hn
          simp only [Json.Plain, plainElems_iff] at hp
          have hall : ∀ x ∈ xs, ∀ c ∈ x.print, c < 128 := fun x hx => ih x (hn x hx) (hp x hx)
          cases xs with
          | nil => decide
          | cons x xs =>
              intro c hc
              simp only [Json.print, List.cons_append, List.mem_cons, List.mem_append] at hc
              rcases hc with rfl | hc | hc
              · omega
              · exact hall x (by simp) c hc
              · exact printElems_ascii (fun y hy => hall y (List.mem_cons_of_mem _ hy)) c hc
      | obj kvs =>
          simp only [Json.nesting, Nat.add_le_add_iff_right, nestingMembers_le] at hn
          simp only [Json.Plain, plainMembers_iff] at hp
          have hall : ∀ kv ∈ kvs, Str.Joined kv.1 ∧ ∀ c ∈ kv.2.print, c < 128 :=
            fun kv hkv => ⟨(hp.2 kv hkv).1, ih kv.2 (hn kv hkv) (hp.2 kv hkv).2⟩
          cases kvs with
          | nil => decide
          | cons kv kvs =>
              obtain ⟨k, v⟩ := kv
              intro c hc
              simp only [Json.print, List.cons_append, List.append_assoc, List.mem_cons,
                List.mem_append] at hc
              rcases hc with rfl | hc | rfl | hc | hc
              · omega
              · exact printStr_ascii (hall (k, v) (by simp)).1 c hc
              · omega
              · exact (hall (k, v) (by simp)).2 c hc
              · exact printMembers_ascii (fun y hy => hall y (List.mem_cons_of_mem _ hy)) c hc
      | null => decide
      | bool b => cases b <;> decide
      | int n => rw [Json.print]; exact printInt_ascii n
      | float t => exact absurd hp (by simp [Json.Plain])
      | str s => rw [Json.print]; exact printStr_ascii (by simpa [Json.Plain] using hp)

theorem utf8Decode_asciiBytes (surrogates : Bool) {s : Str} (h : ∀ c ∈ s, c < 128) :
    utf8Decode surrogates (asciiBytes s) = some s := by
  have haux : ∀ (s : Str) (fuel : Nat), (∀ c ∈ s, c < 128) → s.length ≤ fuel →
      utf8DecodeAux surrogates fuel s = some s := by
    intro s
    induction s with
    | nil => intro fuel _ _; cases fuel <;> rfl
    | cons c s ih =>
        intro fuel h hf
        cases fuel with
        | zero => simp at hf
        | succ n =>
            have hc : c < 0x80 := h c (by simp)
            have hstep : utf8Step surrogates (c :: s) = some (c, s) := by
              simp only [utf8Step, if_pos hc]
            simp only [utf8DecodeAux, hstep]
            rw [ih n (fun d hd => h d (List.mem_cons_of_mem _ hd)) (by simpa using hf)]
            rfl
  have hmap : (asciiBytes s).map UInt8.toNat = s := by
    rw [asciiBytes, List.map_map]
    conv_rhs => rw [← List.map_id s]
    refine List.map_congr_left fun c hc => ?_
    have hlt := h c hc
    simp only [Function.comp_apply, id_eq, UInt8.toNat_ofNat']
    omega
  rw [utf8Decode, hmap]
  exact haux s _ h (by simp [asciiBytes])

theorem asciiBytes_inj {s t : Str} (hs : ∀ c ∈ s, c < 128) (ht : ∀ c ∈ t, c < 128)
    (h : asciiBytes s = asciiBytes t) : s = t := by
  have := congrArg (utf8Decode true) h
  rwa [utf8Decode_asciiBytes _ hs, utf8Decode_asciiBytes _ ht, Option.some_inj] at this

theorem dumps_ascii {v : Json} {s : Str} (hp : v.Plain) (hd : dumps v = some s) :
    ∀ c ∈ s, c < 128 := by
  obtain ⟨-, rfl⟩ := dumps_eq_some.mp hd
  exact print_ascii _ _ le_rfl hp.sortKeys

/-- The bytes of a dumped value, read by either decoder. -/
theorem loadsBytes_dumps (h : Hooks) {v : Json} {s : Str} (hp : v.Plain)
    (hn : v.nesting ≤ nestingLimit) (hd : dumps v = some s) :
    loadsBytes h (asciiBytes s) = .ok v.sortKeys := by
  rw [loadsBytes, utf8Decode_asciiBytes _ (dumps_ascii hp hd)]
  exact loads_dumps h hp hn hd

theorem loadsUtf8_dumps (h : Hooks) {v : Json} {s : Str} (hp : v.Plain)
    (hn : v.nesting ≤ nestingLimit) (hd : dumps v = some s) :
    loadsUtf8 h (asciiBytes s) = .ok v.sortKeys := by
  rw [loadsUtf8, utf8Decode_asciiBytes _ (dumps_ascii hp hd)]
  exact loads_dumps h hp hn hd

end Lib
