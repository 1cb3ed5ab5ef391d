/-
What the reader returns.

A value read from UTF-8 is `Decoded`.  Its keys are distinct because a repeated key is
refused or overwrites the one before.  Its strings are joined for two reasons that meet in
`scanString_joined`: strict UTF-8 holds no surrogates, so one can only come from an
escape, and the reader joins an escape of a low surrogate to a high one before it.
-/
import DataEngLab.Lib.JsonBounds

namespace Lib

/-- Text without surrogates. -/
def NoSurrogates (s : Str) : Prop :=
  ∀ c ∈ s, c < 0x110000 ∧ isHighSurrogate c = false ∧ isLowSurrogate c = false

theorem NoSurrogates.tail {c : Nat} {s : Str} (h : NoSurrogates (c :: s)) : NoSurrogates s :=
  fun d hd => h d (List.mem_cons_of_mem c hd)

theorem NoSurrogates.dropWhile {p : Nat → Bool} {s : Str} (h : NoSurrogates s) :
    NoSurrogates (s.dropWhile p) :=
  fun c hc => h c ((List.dropWhile_suffix p).subset hc)

theorem NoSurrogates.skipWs {s : Str} (h : NoSurrogates s) : NoSurrogates (skipWs s) := h.dropWhile

theorem NoSurrogates.ite {c : Prop} [Decidable c] {a b : Str × Str} (ha : NoSurrogates a.2)
    (hb : NoSurrogates b.2) : NoSurrogates (if c then a else b).2 := by
  split
  · exact ha
  · exact hb

/-! ### Bytes -/

theorem utf8Step_noSurrogate {s r : List Nat} {c : Nat} (hs : ∀ b ∈ s, b < 256)
    (h : utf8Step false s = some (c, r)) : (c < 0x110000 ∧ isHighSurrogate c = false ∧
      isLowSurrogate c = false) ∧ ∀ b ∈ r, b < 256 := by
  have hplain : ∀ c : Nat, c < 0x110000 → (c < 0xD800 ∨ 0xDFFF < c) →
      c < 0x110000 ∧ isHighSurrogate c = false ∧ isLowSurrogate c = false := by
    intro c hc hor
    simp only [isHighSurrogate, isLowSurrogate, Bool.and_eq_false_iff, decide_eq_false_iff_not]
    omega
  unfold utf8Step at h
  split at h
  · cases h
  · rename_i a r₀
    split at h
    · simp only [Option.some.injEq, Prod.mk.injEq] at h
      obtain ⟨rfl, rfl⟩ := h
      exact ⟨hplain _ (by omega) (by omega), fun b hb => hs b (List.mem_cons_of_mem a hb)⟩
    · split at h
      · cases h
      · rename_i b r₁
        split at h
        · rename_i hc
          simp only [Option.some.injEq, Prod.mk.injEq] at h
          obtain ⟨rfl, rfl⟩ := h
          simp only [isContinuation, Bool.and_eq_true, decide_eq_true_eq] at hc
          exact ⟨hplain _ (by omega) (by omega), fun x hx => hs x (by simp [hx])⟩
        · split at h
          · cases h
          · rename_i c' r₂
            split at h
            · rename_i hc
              simp only [Option.some.injEq, Prod.mk.injEq] at h
              obtain ⟨rfl, rfl⟩ := h
              simp only [isContinuation, Bool.and_eq_true, decide_eq_true_eq] at hc
              refine ⟨hplain _ (by omega) ?_, fun x hx => hs x (by simp [hx])⟩
              by_cases ha : a = 0xED
              · have := hc.2.2.2.2.2 ha trivial; omega
              · omega
            · split at h
              · cases h
              · rename_i d r₃
                split at h
                · rename_i hc
                  simp only [Option.some.injEq, Prod.mk.injEq] at h
                  obtain ⟨rfl, rfl⟩ := h
                  simp only [isContinuation, Bool.and_eq_true, decide_eq_true_eq] at hc
                  refine ⟨hplain _ ?_ ?_, fun x hx => hs x (by simp [hx])⟩
                  · by_cases ha : a = 0xF4
                    · have := hc.2.2.2.2.2.2 ha; omega
                    · omega
                  · by_cases ha : a = 0xF0
                    · have := hc.2.2.2.2.2.1 ha; omega
                    · omega
                · cases h

theorem utf8Decode_noSurrogates {b : Bytes} {s : Str} (h : utf8Decode false b = some s) :
    NoSurrogates s := by
  have haux : ∀ (fuel : Nat) (b : List Nat) (s : Str), (∀ x ∈ b, x < 256) →
      utf8DecodeAux false fuel b = some s → NoSurrogates s := by
    intro fuel
    induction fuel with
    | zero =>
        intro b s _ hs
        cases b with
        | nil => simp only [utf8DecodeAux, Option.some.injEq] at hs; subst hs; intro c hc; cases hc
        | cons x b => simp [utf8DecodeAux] at hs
    | succ fuel ih =>
        intro b s hb hs
        cases b with
        | nil => simp only [utf8DecodeAux, Option.some.injEq] at hs; subst hs; intro c hc; cases hc
        | cons x b =>
            simp only [utf8DecodeAux] at hs
            split at hs
            · cases hs
            · rename_i c r hstep
              obtain ⟨hc, hr⟩ := utf8Step_noSurrogate hb hstep
              simp only [Option.map_eq_some_iff] at hs
              obtain ⟨t, ht, rfl⟩ := hs
              intro d hd
              rcases List.mem_cons.mp hd with rfl | hd'
              · exact hc
              · exact ih r t hr ht d hd'
  refine haux _ _ s ?_ h
  intro x hx
  obtain ⟨y, -, rfl⟩ := List.mem_map.mp hx
  exact y.toNat_lt

/-! ### Strings -/

theorem scanUnit_lt {s r : Str} {u : Nat} (h : scanUnit s = some (u, r)) :
    u < 0x10000 ∧ ∀ {t : Str}, NoSurrogates (t ++ s) → NoSurrogates r := by
  have hhex : ∀ {c v : Nat}, hexValue c = some v → v < 16 := by
    intro c v hv
    unfold hexValue at hv
    split at hv
    · rename_i hc
      simp only [isDigit, Bool.and_eq_true, decide_eq_true_eq] at hc
      simp only [Option.some.injEq] at hv; omega
    · split at hv
      · simp only [Option.some.injEq] at hv; omega
      · split at hv
        · simp only [Option.some.injEq] at hv; omega
        · cases hv
  unfold scanUnit at h
  split at h
  · rename_i a b c d r'
    split at h
    · rename_i hw hx hy hz
      simp only [Option.some.injEq, Prod.mk.injEq] at h
      obtain ⟨rfl, rfl⟩ := h
      have h1 := hhex hw
      have h2 := hhex hx
      have h3 := hhex hy
      have h4 := hhex hz
      exact ⟨by omega, fun hn e he => hn e (by simp [he])⟩
    · cases h
  · cases h

/-- What one character of a string literal can be. -/
structure ScannedChar (s : Str) (c : Nat) (r : Str) : Prop where
  lt : c < 0x110000
  rest : NoSurrogates r
  /-- a low surrogate comes from an escape -/
  low : isLowSurrogate c = true → ∃ s' r', s = 92 :: 117 :: s' ∧ scanUnit s' = some (c, r')
  /-- a high surrogate was not followed by the escape of a low one -/
  high : isHighSurrogate c = true → ∀ s' l r', r = 92 :: 117 :: s' → scanUnit s' = some (l, r') →
    isLowSurrogate l = false

theorem high_not_low {u : Nat} (h : isHighSurrogate u = true) : isLowSurrogate u = false := by
  simp only [isHighSurrogate, isLowSurrogate, Bool.and_eq_true, decide_eq_true_eq,
    Bool.and_eq_false_iff, decide_eq_false_iff_not] at h ⊢
  omega

theorem joinLow_scanned {s r r' : Str} {u c : Nat} (hu : isHighSurrogate u = true) (hr : NoSurrogates r)
    (h : joinLow u r = .ok (c, r')) : ScannedChar s c r' := by
  unfold joinLow at h
  have hu' := hu
  simp only [isHighSurrogate, Bool.and_eq_true, decide_eq_true_eq] at hu'
  split at h
  · rename_i t
    split at h
    · cases h
    · rename_i l t' hunit
      split at h
      · rename_i hl
        have hl' := hl
        simp only [isLowSurrogate, Bool.and_eq_true, decide_eq_true_eq] at hl'
        simp only [Except.ok.injEq, Prod.mk.injEq] at h
        obtain ⟨rfl, rfl⟩ := h
        refine ⟨by omega, (scanUnit_lt hunit).2 (t := [92, 117]) hr, ?_, ?_⟩
        · intro hc
          simp only [isLowSurrogate, Bool.and_eq_true, decide_eq_true_eq] at hc
          omega
        · intro hc
          simp only [isHighSurrogate, Bool.and_eq_true, decide_eq_true_eq] at hc
          omega
      · rename_i hl
        simp only [Except.ok.injEq, Prod.mk.injEq] at h
        obtain ⟨rfl, rfl⟩ := h
        refine ⟨by omega, hr, fun hc => ?_, ?_⟩
        · rw [high_not_low hu] at hc; cases hc
        · intro _ s' l' r'' hs' hl'
          simp only [List.cons.injEq, true_and] at hs'
          subst hs'
          rw [hunit] at hl'
          simp only [Option.some.injEq, Prod.mk.injEq] at hl'
          simpa [← hl'.1] using hl
  · rename_i hne
    simp only [Except.ok.injEq, Prod.mk.injEq] at h
    obtain ⟨rfl, rfl⟩ := h
    refine ⟨by omega, hr, fun hc => ?_, ?_⟩
    · rw [high_not_low hu] at hc; cases hc
    · intro _ s' l r'' hs'
      exact absurd hs' (hne s')

theorem scanChar_scanned {s r : Str} {c : Nat} (hs : NoSurrogates s) (h : scanChar s = .ok (c, r)) :
    ScannedChar s c r := by
  unfold scanChar at h
  split at h
  · cases h
  · cases h
  · rename_i e t
    have ht : NoSurrogates t := hs.tail.tail
    split at h
    · rename_i he
      subst he
      split at h
      · cases h
      · rename_i u t' hunit
        obtain ⟨hlt, hrest⟩ := scanUnit_lt hunit
        have ht' := hrest (t := []) ht
        split at h
        · rename_i hu
          exact joinLow_scanned hu ht' h
        · rename_i hu
          simp only [Except.ok.injEq, Prod.mk.injEq] at h
          obtain ⟨rfl, rfl⟩ := h
          exact ⟨by omega, ht', fun _ => ⟨t, t', rfl, hunit⟩, fun hc => absurd hc hu⟩
    · split at h
      · rename_i d hd
        simp only [Except.ok.injEq, Prod.mk.injEq] at h
        obtain ⟨rfl, rfl⟩ := h
        have hsmall : d < 128 := by
          unfold simpleEscape at hd
          split at hd
          · simp only [Option.some.injEq] at hd; omega
          split at hd
          · simp only [Option.some.injEq] at hd; omega
          split at hd
          · simp only [Option.some.injEq] at hd; omega
          split at hd
          · simp only [Option.some.injEq] at hd; omega
          split at hd
          · simp only [Option.some.injEq] at hd; omega
          split at hd
          · simp only [Option.some.injEq] at hd; omega
          split at hd
          · simp only [Option.some.injEq] at hd; omega
          split at hd
          · simp only [Option.some.injEq] at hd; omega
          · cases hd
        refine ⟨by omega, ht, fun hc => ?_, fun hc => ?_⟩
        · simp only [isLowSurrogate, Bool.and_eq_true, decide_eq_true_eq] at hc; omega
        · simp only [isHighSurrogate, Bool.and_eq_true, decide_eq_true_eq] at hc; omega
      · cases h
  · rename_i c' t _ _
    split at h
    · cases h
    · simp only [Except.ok.injEq, Prod.mk.injEq] at h
      obtain ⟨rfl, rfl⟩ := h
      obtain ⟨hlt, hhigh, hlow⟩ := hs c' (by simp)
      refine ⟨hlt, hs.tail, fun hc => ?_, fun hc => ?_⟩
      · rw [hlow] at hc; cases hc
      · rw [hhigh] at hc; cases hc

theorem scanString_joined : ∀ {fuel : Nat} {s r cs : Str}, NoSurrogates s →
    scanString fuel s = .ok (cs, r) → Str.Joined cs ∧ NoSurrogates r ∧
      ∀ c rest, cs = c :: rest → ∃ t, scanChar s = .ok (c, t) := by
  intro fuel
  induction fuel with
  | zero => intro s r cs _ h; simp [scanString] at h
  | succ fuel ih =>
      intro s r cs hs h
      simp only [scanString] at h
      split at h
      · simp only [Except.ok.injEq, Prod.mk.injEq] at h
        obtain ⟨rfl, rfl⟩ := h
        exact ⟨trivial, hs.tail, fun c rest hc => by cases hc⟩
      · split at h
        · cases h
        · rename_i c t hchar
          split at h
          · cases h
          · rename_i cs' r' hrest
            simp only [Except.ok.injEq, Prod.mk.injEq] at h
            obtain ⟨rfl, rfl⟩ := h
            have hsc := scanChar_scanned hs hchar
            obtain ⟨hj, hr, hhead⟩ := ih hsc.rest hrest
            refine ⟨?_, hr, fun c' rest hc => ?_⟩
            · cases cs' with
              | nil => exact hsc.lt
              | cons d ds =>
                  refine ⟨hsc.lt, ?_, hj⟩
                  -- the low surrogate would have been joined when `c` was read
                  rintro ⟨hhigh, hlow⟩
                  obtain ⟨t', ht'⟩ := hhead d ds rfl
                  obtain ⟨u, r₁, hu, hunit⟩ := (scanChar_scanned hsc.rest ht').low hlow
                  have := hsc.high hhigh u d r₁ hu hunit
                  rw [this] at hlow
                  cases hlow
            · cases hc
              exact ⟨t, hchar⟩

/-! ### Values -/

theorem dictInsert_keys (k : Str) (v : Json) (d : List (Str × Json)) :
    (dictInsert k v d).map Prod.fst =
      if k ∈ d.map Prod.fst then d.map Prod.fst else d.map Prod.fst ++ [k] := by
  induction d with
  | nil => simp [dictInsert]
  | cons p d ih =>
      obtain ⟨k', v'⟩ := p
      simp only [dictInsert]
      by_cases hk : k' = k
      · simp [hk]
      · have hne : ¬ k = k' := fun hc => hk hc.symm
        rw [if_neg hk, List.map_cons, ih, List.map_cons]
        by_cases hm : k ∈ d.map Prod.fst
        · simp [hm]
        · simp [hm, hne]

theorem mem_dictInsert {k : Str} {v : Json} {d : List (Str × Json)} {p : Str × Json}
    (h : p ∈ dictInsert k v d) : p ∈ d ∨ (p.2 = v ∧ (p.1 = k)) := by
  induction d with
  | nil => simp only [dictInsert, List.mem_singleton] at h; subst h; simp
  | cons q d ih =>
      obtain ⟨k', v'⟩ := q
      simp only [dictInsert] at h
      split at h
      · rename_i hk
        rcases List.mem_cons.mp h with rfl | h'
        · exact .inr ⟨rfl, hk⟩
        · exact .inl (List.mem_cons_of_mem _ h')
      · rcases List.mem_cons.mp h with rfl | h'
        · exact .inl (by simp)
        · rcases ih h' with h'' | h''
          · exact .inl (List.mem_cons_of_mem _ h'')
          · exact .inr h''

theorem makeDict_decoded {h : Hooks} {pairs : List (Str × Json)} {v : Json}
    (hp : ∀ p ∈ pairs, Str.Joined p.1 ∧ p.2.Decoded) (hv : makeDict h pairs = .ok v) : v.Decoded := by
  have hfold : ∀ (pairs d : List (Str × Json)), (d.map Prod.fst).Nodup →
      (∀ p ∈ d, Str.Joined p.1 ∧ p.2.Decoded) → (∀ p ∈ pairs, Str.Joined p.1 ∧ p.2.Decoded) →
      ((pairs.foldl (fun d p => dictInsert p.1 p.2 d) d).map Prod.fst).Nodup ∧
        ∀ p ∈ pairs.foldl (fun d p => dictInsert p.1 p.2 d) d, Str.Joined p.1 ∧ p.2.Decoded := by
    intro pairs
    induction pairs with
    | nil => intro d hn hd _; exact ⟨hn, hd⟩
    | cons q pairs ih =>
        intro d hn hd hq
        refine ih _ ?_ ?_ fun p hp => hq p (List.mem_cons_of_mem q hp)
        · rw [dictInsert_keys]
          split
          · exact hn
          · rename_i hnot
            exact List.nodup_append.mpr ⟨hn, by simp, fun a ha b hb hab => hnot (by
              rw [List.mem_singleton.mp hb] at hab; exact hab ▸ ha)⟩
        · intro p hp
          rcases mem_dictInsert hp with h1 | ⟨h1, h2⟩
          · exact hd p h1
          · rw [h1, h2]; exact hq q (by simp)
  unfold makeDict at hv
  split at hv
  · cases hv
  · simp only [Except.ok.injEq] at hv
    subst hv
    obtain ⟨hn, hall⟩ := hfold pairs [] (by simp) (by simp) hp
    simp only [Json.Decoded, decodedMembers_iff]
    exact ⟨hn, hall⟩

theorem scanFraction_rest {s : Str} (hs : NoSurrogates s) : NoSurrogates (scanFraction s).2 := by
  unfold scanFraction
  split
  · split
    · exact hs.tail.dropWhile
    · exact hs
  · exact hs

theorem scanExponent_rest {s : Str} (hs : NoSurrogates s) : NoSurrogates (scanExponent s).2 := by
  unfold scanExponent
  split
  · rename_i e r
    split
    · have hrest : ∀ n, NoSurrogates ((r.drop n).dropWhile isDigit) := fun n c hc =>
        hs.tail c (List.drop_subset _ _ ((List.dropWhile_suffix _).subset hc))
      exact NoSurrogates.ite hs (hrest _)
    · exact hs
  · exact hs

theorem finishNumber_decoded {neg : Bool} {ds s r : Str} {v : Json} (hs : NoSurrogates s)
    (h : finishNumber neg ds s = .ok (v, r)) : v.Decoded ∧ NoSurrogates r := by
  unfold finishNumber at h
  dsimp only at h
  split at h
  · split at h
    · simp only [Except.ok.injEq, Prod.mk.injEq] at h
      obtain ⟨rfl, rfl⟩ := h
      exact ⟨trivial, hs⟩
    · cases h
  · simp only [Except.ok.injEq, Prod.mk.injEq] at h
    obtain ⟨rfl, rfl⟩ := h
    exact ⟨trivial, scanExponent_rest (scanFraction_rest hs)⟩

theorem scanNatural_decoded {neg : Bool} {s r : Str} {v : Json} (hs : NoSurrogates s)
    (h : scanNatural neg s = .ok (v, r)) : v.Decoded ∧ NoSurrogates r := by
  unfold scanNatural at h
  split at h
  · cases h
  · split at h
    · exact finishNumber_decoded hs.tail h
    · split at h
      · exact finishNumber_decoded hs.dropWhile h
      · cases h

theorem constant_decoded {h : Hooks} {name : String} {s r : Str} {v : Json} (hs : NoSurrogates s)
    (hv : constant h name s = .ok (v, r)) : v.Decoded ∧ NoSurrogates r := by
  unfold constant at hv
  split at hv
  · cases hv
  · simp only [Except.ok.injEq, Prod.mk.injEq] at hv
    obtain ⟨rfl, rfl⟩ := hv
    exact ⟨trivial, hs⟩

theorem scanScalar_decoded {h : Hooks} {s r : Str} {v : Json} (hs : NoSurrogates s)
    (hv : scanScalar h s = .ok (v, r)) : v.Decoded ∧ NoSurrogates r := by
  have hdrop : ∀ (n : Nat) {t : Str}, NoSurrogates t → NoSurrogates (t.drop n) :=
    fun n t ht c hc => ht c (List.drop_subset _ _ hc)
  unfold scanScalar at hv
  split at hv
  · split at hv
    · cases hv
    · rename_i cs r' hstr
      simp only [Except.ok.injEq, Prod.mk.injEq] at hv
      obtain ⟨rfl, rfl⟩ := hv
      obtain ⟨hj, hr, -⟩ := scanString_joined hs.tail hstr
      exact ⟨hj, hr⟩
  · simp only [Except.ok.injEq, Prod.mk.injEq] at hv
    obtain ⟨rfl, rfl⟩ := hv
    exact ⟨trivial, hdrop 4 hs⟩
  · simp only [Except.ok.injEq, Prod.mk.injEq] at hv
    obtain ⟨rfl, rfl⟩ := hv
    exact ⟨trivial, hdrop 4 hs⟩
  · simp only [Except.ok.injEq, Prod.mk.injEq] at hv
    obtain ⟨rfl, rfl⟩ := hv
    exact ⟨trivial, hdrop 5 hs⟩
  · exact constant_decoded (hdrop 3 hs) hv
  · exact constant_decoded (hdrop 8 hs) hv
  · exact constant_decoded (hdrop 9 hs) hv
  · exact scanNatural_decoded hs.tail hv
  · exact scanNatural_decoded hs hv

theorem scanElems_decoded {value : Str → Except LoadsError (Json × Str)}
    (hvalue : ∀ s r v, NoSurrogates s → value s = .ok (v, r) → v.Decoded ∧ NoSurrogates r) :
    ∀ {fuel : Nat} {s r : Str} {vs : List Json}, NoSurrogates s →
      scanElems value fuel s = .ok (vs, r) → (∀ v ∈ vs, v.Decoded) ∧ NoSurrogates r := by
  intro fuel
  induction fuel with
  | zero => intro s r vs _ h; simp [scanElems] at h
  | succ fuel ih =>
      intro s r vs hs h
      simp only [scanElems] at h
      split at h
      · cases h
      · rename_i v r₁ hv
        obtain ⟨hd, hr₁⟩ := hvalue _ _ _ hs hv
        split at h
        · rename_i r₂ hr₂
          simp only [Except.ok.injEq, Prod.mk.injEq] at h
          obtain ⟨rfl, rfl⟩ := h
          have := hr₁.skipWs
          rw [hr₂] at this
          exact ⟨by simpa using hd, this.tail⟩
        · rename_i r₂ hr₂
          have hws := hr₁.skipWs
          rw [hr₂] at hws
          split at h
          · cases h
          · rename_i vs' r₃ hvs
            simp only [Except.ok.injEq, Prod.mk.injEq] at h
            obtain ⟨rfl, rfl⟩ := h
            obtain ⟨hds, hr₃⟩ := ih hws.tail.skipWs hvs
            exact ⟨by simpa using ⟨hd, hds⟩, hr₃⟩
        · cases h

theorem scanMembers_decoded {value : Str → Except LoadsError (Json × Str)}
    (hvalue : ∀ s r v, NoSurrogates s → value s = .ok (v, r) → v.Decoded ∧ NoSurrogates r) :
    ∀ {fuel : Nat} {s r : Str} {kvs : List (Str × Json)}, NoSurrogates s →
      scanMembers value fuel s = .ok (kvs, r) →
        (∀ kv ∈ kvs, Str.Joined kv.1 ∧ kv.2.Decoded) ∧ NoSurrogates r := by
  intro fuel
  induction fuel with
  | zero => intro s r kvs _ h; simp [scanMembers] at h
  | succ fuel ih =>
      intro s r kvs hs h
      simp only [scanMembers] at h
      split at h
      · split at h
        · cases h
        · rename_i k r₁ hk
          obtain ⟨hj, hr₁, -⟩ := scanString_joined hs.tail hk
          split at h
          · rename_i r₂ hr₂
            have hws := hr₁.skipWs
            rw [hr₂] at hws
            split at h
            · cases h
            · rename_i v r₃ hv
              obtain ⟨hd, hr₃⟩ := hvalue _ _ _ hws.tail.skipWs hv
              have hws₃ := hr₃.skipWs
              split at h
              · rename_i r₄ hr₄
                simp only [Except.ok.injEq, Prod.mk.injEq] at h
                obtain ⟨rfl, rfl⟩ := h
                rw [hr₄] at hws₃
                exact ⟨by simpa using ⟨hj, hd⟩, hws₃.tail⟩
              · rename_i r₄ hr₄
                rw [hr₄] at hws₃
                split at h
                · cases h
                · rename_i kvs' r₅ hkvs
                  simp only [Except.ok.injEq, Prod.mk.injEq] at h
                  obtain ⟨rfl, rfl⟩ := h
                  obtain ⟨hall, hr₅⟩ := ih hws₃.tail.skipWs hkvs
                  refine ⟨fun kv hkv => ?_, hr₅⟩
                  rcases List.mem_cons.mp hkv with rfl | hkv'
                  · exact ⟨hj, hd⟩
                  · exact hall kv hkv'
              · cases h
          · cases h
      · cases h

theorem scanValue_decoded {h : Hooks} : ∀ {depth : Nat} {s r : Str} {v : Json}, NoSurrogates s →
    scanValue h depth s = .ok (v, r) → v.Decoded ∧ NoSurrogates r := by
  intro depth
  induction depth with
  | zero =>
      intro s r v hs hv
      unfold scanValue at hv
      split at hv
      · cases hv
      · cases hv
      · exact scanScalar_decoded hs hv
  | succ depth ih =>
      intro s r v hs hv
      unfold scanValue at hv
      split at hv
      · dsimp only at hv
        have hws := hs.tail.skipWs
        split at hv
        · rename_i hr
          simp only [Except.ok.injEq, Prod.mk.injEq] at hv
          obtain ⟨rfl, rfl⟩ := hv
          rw [hr] at hws
          exact ⟨trivial, hws.tail⟩
        · split at hv
          · cases hv
          · rename_i vs r' hvs
            simp only [Except.ok.injEq, Prod.mk.injEq] at hv
            obtain ⟨rfl, rfl⟩ := hv
            obtain ⟨hall, hr'⟩ := scanElems_decoded (fun _ _ _ => ih) hws hvs
            exact ⟨by simpa only [Json.Decoded, decodedElems_iff] using hall, hr'⟩
      · dsimp only at hv
        have hws := hs.tail.skipWs
        split at hv
        · rename_i hr
          split at hv
          · cases hv
          · rename_i w hw
            simp only [Except.ok.injEq, Prod.mk.injEq] at hv
            obtain ⟨rfl, rfl⟩ := hv
            rw [hr] at hws
            exact ⟨makeDict_decoded (by simp) hw, hws.tail⟩
        · split at hv
          · cases hv
          · rename_i kvs r' hkvs
            obtain ⟨hall, hr'⟩ := scanMembers_decoded (fun _ _ _ => ih) hws hkvs
            split at hv
            · cases hv
            · rename_i w hw
              simp only [Except.ok.injEq, Prod.mk.injEq] at hv
              obtain ⟨rfl, rfl⟩ := hv
              exact ⟨makeDict_decoded hall hw, hr'⟩
      · exact scanScalar_decoded hs hv

/-- **A value read from UTF-8 has joined strings and distinct keys.** -/
theorem loadsUtf8_decoded {h : Hooks} {b : Bytes} {v : Json} (hv : loadsUtf8 h b = .ok v) :
    v.Decoded := by
  unfold loadsUtf8 at hv
  split at hv
  · cases hv
  · rename_i s hs
    have hno := utf8Decode_noSurrogates hs
    unfold loads at hv
    split at hv
    · cases hv
    · split at hv
      · cases hv
      · rename_i w r hscan
        split at hv
        · simp only [Except.ok.injEq] at hv
          subst hv
          exact (scanValue_decoded hno.skipWs hscan).1
        · cases hv

end Lib
