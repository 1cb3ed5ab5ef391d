/-
What the reconciliation says of the result, and where it ends in another exception.

The cells are typed: a revenue is a `decimal(38,2)`, a count a `bigint`, and any cell may be
`NULL`.  The context of the decimals keeps 28 digits of these 38.  A sum of revenues may be
rounded and still reconcile with nothing but the exact sum (`Holds.same_iff`): what the
context cannot hold is never equal to what it can.  The check of the scale is what gives
way, `quantize` raising `InvalidOperation` where the function raises `ContractError` for
everything else it refuses.
-/
import DataEngLab.Lib.DecimalExact
import DataEngLab.TrinoBi.Binding
import Mathlib.Algebra.BigOperators.Group.List.Basic

namespace TrinoBi

open Lib

/-! ### Typed cells -/

/-- A `decimal(38,2)`. -/
structure Money where
  hundredths : Int
  bounded : hundredths.natAbs < 10 ^ 38

/-- A row of the result, over the types of its columns. -/
structure ResultCells where
  segment : Option Str
  totalRevenue : Option Money
  lineCount : Option Int
  orderCount : Option Int

/-- The row as it is decoded. -/
def ResultCells.row (c : ResultCells) : List Json :=
  [textCell c.segment, decimalCell (c.totalRevenue.map Money.hundredths), bigintCell c.lineCount,
    bigintCell c.orderCount]

/-- The totals of the sources, over the types of their columns; the counts have been found to be
integers. -/
structure TotalsCells where
  factOrderCount : Int
  factRevenue : Option Money
  factLineCount : Int
  unmatchedOrders : Int

def TotalsCells.totals (c : TotalsCells) : SourceTotals :=
  ⟨c.factOrderCount, decimalCell (c.factRevenue.map Money.hundredths), c.factLineCount, c.unmatchedOrders⟩

/-! ### Money as text -/

theorem ofText_hundredths (m : Money) :
    Decimal.ofText (hundredths m.hundredths) = some (.finite (Dec.scaled m.hundredths (-2))) := by
  obtain ⟨n, hn⟩ := m
  have hpad : n.natAbs % 100 < 10 ^ 2 := by omega
  have hvalue : digitsValue (decDigits (n.natAbs / 100) ++ padDigits 2 (n.natAbs % 100)) = n.natAbs := by
    rw [digitsValue_append, digitsValue_decDigits, digitsValue_padDigits 2 _ hpad, padDigits_length]
    exact Nat.div_add_mod' n.natAbs 100
  have hcount : digitCount n.natAbs ≤ 38 := (digitCount_le_iff (by decide)).mpr hn
  have hread := @ofText_point (decide (n < 0)) _ _ (List.ne_nil_of_length_pos (digitCount_pos (n.natAbs / 100)))
    (decDigits_digits _) (padDigits_digits 2 (n.natAbs % 100)) (by
      rw [hvalue, padDigits_length]
      simp only [Dec.representable, maxExponent, Bool.and_eq_true]
      refine ⟨decide_eq_true ?_, decide_eq_true ?_⟩ <;> omega)
  rw [hvalue, padDigits_length] at hread
  simp only [decide_eq_true_eq] at hread
  rw [hundredths, List.append_assoc]
  exact hread

theorem fixed_scaled {n : Int} (h : 0 ≤ n) : (Dec.scaled n (-2)).fixed = hundredths n := by
  have hneg : ¬ n < 0 := by omega
  have hpadded := padded_decDigits n.natAbs
  have hlen : (decDigits (n.natAbs / 100) ++ padDigits 2 (n.natAbs % 100)).length - 2 =
      (decDigits (n.natAbs / 100)).length := by
    rw [List.length_append, padDigits_length]
    omega
  simp only [Dec.fixed, Dec.scaled, Int.neg_neg, hneg, decide_false, Bool.false_eq_true, ↓reduceIte, hundredths,
    List.nil_append]
  rw [show ((2 : Int).toNat) = 2 from rfl, if_neg (by decide), hpadded, hlen, List.take_left', List.drop_left']
  · rfl
  · rfl

section
variable {py : Python}

theorem decimal_null (label : String) :
    decimal py (decimalCell none) label = .error (.contract (label ++ " must be a finite decimal")) := rfl

/-- What `_decimal` makes of a `decimal(38,2)`. -/
theorem decimal_money (m : Money) (label : String) :
    decimal py (decimalCell (some m.hundredths)) label =
      if 10 ^ precision ≤ m.hundredths.natAbs then .error .invalidOperation
      else if 0 < m.hundredths then .ok (Dec.scaled m.hundredths (-2))
      else .error (.contract (label ++ " must be positive")) := by
  have hread : decimalOf py (decimalCell (some m.hundredths)) = some (.finite (Dec.scaled m.hundredths (-2))) :=
    ofText_hundredths m
  have hquantize : (Dec.scaled m.hundredths (-2)).quantize (-2) =
      if 10 ^ precision ≤ m.hundredths.natAbs then none else some (Dec.scaled m.hundredths (-2)) := by
    rw [Dec.quantize_scaled]
    split <;> split <;> first | rfl | omega
  rw [decimal, hread]
  show (orElse _ Exn.invalidOperation >>= _) = _
  rw [hquantize]
  by_cases hbig : 10 ^ precision ≤ m.hundredths.natAbs
  · simp only [if_pos hbig]
    rfl
  · by_cases hpos : 0 < m.hundredths
    · simp [hbig, hpos, orElse, bind, Except.bind, pure, Except.pure]
    · simp [hbig, hpos, orElse, bind, Except.bind]

/-! ### One row -/

/-- What the loop asks of a row alone, when its decimals fit the context. -/
structure ResultCells.Good (c : ResultCells) : Prop where
  segment : ∃ s, c.segment = some s ∧ isBlank s = false
  revenue : ∃ m, c.totalRevenue = some m ∧ 0 < m.hundredths ∧ m.hundredths.natAbs < 10 ^ precision
  counts : ∃ l o, c.lineCount = some l ∧ c.orderCount = some o ∧ 0 < o ∧ o ≤ l

/-- The loop comes to the revenue of the row, and the context does not hold it. -/
structure ResultCells.Overflows (c : ResultCells) : Prop where
  segment : ∃ s, c.segment = some s ∧ isBlank s = false
  revenue : ∃ m, c.totalRevenue = some m ∧ 10 ^ precision ≤ m.hundredths.natAbs

def ResultCells.hundredths (c : ResultCells) : Nat := (c.totalRevenue.map fun m => m.hundredths.natAbs).getD 0

/-- A good row as the artifact has it. -/
def ResultCells.entry (c : ResultCells) : ResultRow :=
  ⟨c.segment.getD [], TrinoBi.hundredths c.hundredths, c.lineCount.getD 0, c.orderCount.getD 0⟩

/-- What comes out of a computation is a contract error, or one of `other`. -/
def Contractual {α : Type} (other : Exn → Prop) (x : Except Exn α) : Prop :=
  ∀ e, x = .error e → other e ∨ ∃ m, e = .contract m

section
variable {other : Exn → Prop} {α β : Type}

theorem contractual_ok (a : α) : Contractual other (.ok a) := fun _ h => error_of_ok h

theorem contractual_contract (m : String) : Contractual other (.error (.contract m) : Except Exn α) := by
  rintro e h
  cases h
  exact .inr ⟨m, rfl⟩

theorem contractual_require (c : Bool) (m : String) : Contractual other (require c (.contract m)) := by
  cases c with
  | true => exact contractual_ok ()
  | false => exact contractual_contract m

theorem contractual_orElse (o : Option α) (m : String) : Contractual other (orElse o (.contract m)) := by
  cases o with
  | some a => exact contractual_ok a
  | none => exact contractual_contract m

theorem Contractual.bind {x : Except Exn α} {f : α → Except Exn β} (hx : Contractual other x)
    (hf : ∀ a, x = .ok a → Contractual other (f a)) : Contractual other (x >>= f) := by
  intro e h
  rcases bind_eq_error.mp h with h | ⟨a, ha, h⟩
  · exact hx e h
  · exact hf a ha e h

/-- A computation with contract errors only. -/
theorem Contractual.ne_invalid {x : Except Exn α} (h : Contractual (fun _ => False) x) :
    x ≠ .error .invalidOperation := by
  intro hx
  obtain hfalse | ⟨m, hm⟩ := h _ hx
  · exact hfalse
  · cases hm

theorem contractual_segmentOf (v : Json) : Contractual other (segmentOf v) := by
  unfold segmentOf
  split
  · split
    · exact contractual_contract _
    · exact contractual_ok _
  · exact contractual_contract _

theorem segmentOf_text {s : Option Str} {t : Str} :
    segmentOf (textCell s) = .ok t ↔ s = some t ∧ isBlank t = false := by
  cases s with
  | none => simp [segmentOf, textCell]
  | some s =>
      simp only [segmentOf, textCell, Option.some.injEq]
      constructor
      · intro h
        split at h
        · cases h
        · cases h
          rename_i hblank
          exact ⟨rfl, by simpa using hblank⟩
      · rintro ⟨rfl, hblank⟩
        rw [hblank]
        rfl

theorem integer_bigint {n : Option Int} {label : String} {k : Int} :
    integer (bigintCell n) label true = .ok k ↔ n = some k ∧ 0 < k := by
  cases n with
  | none => simp [integer, bigintCell, cell]
  | some n =>
      simp only [integer, bigintCell, cell, bind_eq_ok, require_eq_ok, pure_eq_ok, Bool.not_true, Bool.false_or,
        decide_eq_true_eq, exists_and_left, Option.some.injEq]
      constructor
      · rintro ⟨h, -, rfl⟩
        exact ⟨rfl, h⟩
      · rintro ⟨rfl, h⟩
        exact ⟨h, (), rfl⟩

theorem contractual_integer (v : Json) (label : String) : Contractual other (integer v label true) := by
  unfold integer
  split
  · exact (contractual_require _ _).bind fun _ _ => contractual_ok _
  · exact contractual_contract _

end

theorem decimal_eq_ok {m : Option Money} {label : String} {d : Dec} :
    decimal py (decimalCell (m.map Money.hundredths)) label = .ok d ↔
      ∃ x, m = some x ∧ 0 < x.hundredths ∧ x.hundredths.natAbs < 10 ^ precision ∧
        d = Dec.scaled x.hundredths (-2) := by
  cases m with
  | none =>
      rw [Option.map_none, decimal_null]
      simp
  | some x =>
      rw [Option.map_some, decimal_money]
      constructor
      · intro h
        split_ifs at h with hbig hpos
        cases h
        exact ⟨x, rfl, hpos, by omega, rfl⟩
      · rintro ⟨y, hy, hpos, hfits, rfl⟩
        cases hy
        rw [if_neg (by omega), if_pos hpos]

theorem decimal_invalid {m : Option Money} {label : String} :
    decimal py (decimalCell (m.map Money.hundredths)) label = .error .invalidOperation ↔
      ∃ x, m = some x ∧ 10 ^ precision ≤ x.hundredths.natAbs := by
  cases m with
  | none =>
      rw [Option.map_none, decimal_null]
      simp
  | some x =>
      rw [Option.map_some, decimal_money]
      constructor
      · intro h
        split_ifs at h with hbig hpos
        · exact ⟨x, rfl, hbig⟩
        · cases h
      · rintro ⟨y, hy, hbig⟩
        cases hy
        rw [if_pos hbig]

theorem contractual_decimal {m : Option Money} {label : String} :
    Contractual (· = .invalidOperation) (decimal py (decimalCell (m.map Money.hundredths)) label) := by
  cases m with
  | none => exact contractual_contract _
  | some x =>
      rw [Option.map_some, decimal_money]
      split_ifs
      · intro e h
        cases h
        exact .inl rfl
      · exact contractual_ok _
      · exact contractual_contract _

/-! ### The loop -/

/-- The rows taken so far. -/
structure Tallied (cs : List ResultCells) (t : Tally) : Prop where
  rows : t.rows = cs.map ResultCells.entry
  revenue : Holds (-2) t.revenue (cs.map ResultCells.hundredths).sum
  lines : t.lines = (cs.map fun c => c.lineCount.getD 0).sum
  orders : t.orders = (cs.map fun c => c.orderCount.getD 0).sum

theorem tallied_start : Tallied [] Tally.start := ⟨rfl, holds_zero (by decide), rfl, rfl⟩

/-- A segment that no row before it has. -/
def ResultCells.New (cs : List ResultCells) (c : ResultCells) : Prop := ∀ b ∈ cs, b.segment ≠ c.segment

/-- The rows taken are good and their segments distinct. -/
structure Acceptable (cs : List ResultCells) : Prop where
  good : ∀ c ∈ cs, c.Good
  distinct : (cs.map ResultCells.segment).Nodup

theorem Acceptable.perm {cs cs' : List ResultCells} (h : Acceptable cs) (hp : cs'.Perm cs) : Acceptable cs' :=
  ⟨fun c hc => h.good c (hp.mem_iff.mp hc), (hp.map _).nodup_iff.mpr h.distinct⟩

theorem acceptable_concat {cs : List ResultCells} {c : ResultCells} :
    Acceptable (cs ++ [c]) ↔ Acceptable cs ∧ c.Good ∧ c.New cs := by
  constructor
  · intro h
    have hd := h.distinct
    rw [List.map_append, List.nodup_append] at hd
    refine ⟨⟨fun b hb => h.good b (List.mem_append_left _ hb), hd.1⟩,
      h.good c (List.mem_append_right _ (List.mem_singleton_self c)), fun b hb heq => ?_⟩
    exact hd.2.2 _ (List.mem_map_of_mem hb) _ (List.mem_singleton_self _) heq
  · rintro ⟨h, hc, hnew⟩
    refine ⟨fun b hb => ?_, ?_⟩
    · rcases List.mem_append.mp hb with hb | hb
      · exact h.good b hb
      · rw [List.mem_singleton.mp hb]
        exact hc
    · rw [List.map_append, List.nodup_append]
      refine ⟨h.distinct, List.nodup_singleton _, ?_⟩
      rintro a ha b hb rfl
      obtain ⟨x, hx, rfl⟩ := List.mem_map.mp ha
      exact hnew x hx (List.mem_singleton.mp hb)

theorem not_any_iff {cs : List ResultCells} {t : Tally} {s : Str} (hcs : Acceptable cs) (ht : Tallied cs t) :
    (!t.rows.any (·.segment == s)) = true ↔ ∀ b ∈ cs, b.segment ≠ some s := by
  simp only [ht.rows, Bool.not_eq_true', List.any_eq_false, List.mem_map, forall_exists_index, and_imp,
    forall_apply_eq_imp_iff₂, beq_iff_eq]
  refine forall₂_congr fun b hb => not_congr ?_
  obtain ⟨u, hu, -⟩ := (hcs.good b hb).segment
  simp [ResultCells.entry, hu]

variable {cs : List ResultCells} {t : Tally} {c : ResultCells}

/-- A row that is taken is good and new, and is counted. -/
theorem addRow_tallied {t' : Tally} (hcs : Acceptable cs) (ht : Tallied cs t)
    (h : addRow py t c.row = .ok t') : Acceptable (cs ++ [c]) ∧ Tallied (cs ++ [c]) t' := by
  simp only [addRow, ResultCells.row, bind_eq_ok, segmentOf_text, require_eq_ok, not_any_iff hcs ht, decimal_eq_ok,
    integer_bigint, orElse_eq_ok, pure_eq_ok] at h
  obtain ⟨s, ⟨hs, hblank⟩, -, hnew, d, ⟨m, hm, hpos, hfits, rfl⟩, l, ⟨hl, -⟩, o, ⟨ho, hopos⟩, -, hle, q, hq, rfl⟩ := h
  rw [Dec.quantize_scaled, if_pos hfits] at hq
  cases hq
  have hm' : c.hundredths = m.hundredths.natAbs := by simp [ResultCells.hundredths, hm]
  have hcast : (m.hundredths.natAbs : Int) = m.hundredths := by omega
  refine ⟨acceptable_concat.mpr ⟨hcs, ⟨⟨s, hs, hblank⟩, ⟨m, hm, hpos, hfits⟩, ⟨l, o, hl, ho, hopos, ?_⟩⟩, ?_⟩,
    ?_, ?_, ?_, ?_⟩
  · simpa using hle
  · intro b hb
    rw [hs]
    exact hnew b hb
  · simp [ht.rows, ResultCells.entry, hs, hl, ho, hm', hcast, fixed_scaled hpos.le]
  · have hadd := ht.revenue.add (n := m.hundredths.natAbs) (by omega)
    rw [hcast] at hadd
    simpa [hm'] using hadd
  · simp [ht.lines, hl]
  · simp [ht.orders, ho]

/-- A row that is good and new is taken. -/
theorem addRow_good (hcs : Acceptable cs) (ht : Tallied cs t) (hc : c.Good) (hnew : c.New cs) :
    ∃ t', addRow py t c.row = .ok t' := by
  obtain ⟨s, hs, hblank⟩ := hc.segment
  obtain ⟨m, hm, hpos, hfits⟩ := hc.revenue
  obtain ⟨l, o, hl, ho, hopos, hle⟩ := hc.counts
  simp only [addRow, ResultCells.row, bind_eq_ok, segmentOf_text, require_eq_ok, not_any_iff hcs ht, decimal_eq_ok,
    integer_bigint, orElse_eq_ok, pure_eq_ok]
  refine ⟨_, s, ⟨hs, hblank⟩, (), fun b hb => hs ▸ hnew b hb, _, ⟨m, hm, hpos, hfits, rfl⟩, l, ⟨hl, by omega⟩, o,
    ⟨ho, hopos⟩, (), by simpa using hle, Dec.scaled m.hundredths (-2), ?_, rfl⟩
  rw [Dec.quantize_scaled, if_pos hfits]

/-- **Where the loop ends in the other exception.** -/
theorem addRow_invalid (hcs : Acceptable cs) (ht : Tallied cs t) :
    addRow py t c.row = .error .invalidOperation ↔ c.Overflows ∧ c.New cs := by
  simp only [addRow, ResultCells.row, bind_eq_error, (contractual_segmentOf _).ne_invalid, segmentOf_text, require_eq_error,
    require_eq_ok, not_any_iff hcs ht, decimal_invalid, decimal_eq_ok, (contractual_integer _ _).ne_invalid, integer_bigint,
    orElse_eq_error, orElse_eq_ok, reduceCtorEq, and_false, false_or, pure_ne_error, exists_false, or_false]
  constructor
  · rintro ⟨s, ⟨hs, hblank⟩, -, hnew, hm | ⟨d, ⟨m, hm, hpos, hfits, rfl⟩, -, -, -, -, -, -, hq⟩⟩
    · exact ⟨⟨⟨s, hs, hblank⟩, hm⟩, fun b hb => hs ▸ hnew b hb⟩
    · rw [Dec.quantize_scaled, if_pos hfits] at hq
      cases hq.1
  · rintro ⟨⟨⟨s, hs, hblank⟩, hm⟩, hnew⟩
    exact ⟨s, ⟨hs, hblank⟩, (), fun b hb => hs ▸ hnew b hb, .inl hm⟩

theorem contractual_addRow (t : Tally) (c : ResultCells) :
    Contractual (· = .invalidOperation) (addRow py t c.row) := by
  refine (contractual_segmentOf _).bind fun s _ => (contractual_require _ _).bind fun _ _ =>
    contractual_decimal.bind fun d _ => (contractual_integer _ _).bind fun l _ => (contractual_integer _ _).bind fun o _ =>
      (contractual_require _ _).bind fun _ _ => Contractual.bind ?_ fun _ _ => contractual_ok _
  intro e h
  exact .inl (orElse_eq_error.mp h).2.symm

/-- The rows, one after the other. -/
abbrev tallyRows (py : Python) (cs : List ResultCells) : Except Exn Tally :=
  (cs.map ResultCells.row).foldlM (addRow py) Tally.start

theorem tallyRows_concat : tallyRows py (cs ++ [c]) = (tallyRows py cs >>= fun t => addRow py t c.row) := by
  rw [tallyRows, List.map_append, List.foldlM_append]
  refine bind_congr fun t => ?_
  exact bind_pure _

/-- What is tallied. -/
theorem tallyRows_ok (cs : List ResultCells) : ∀ t, tallyRows py cs = .ok t → Acceptable cs ∧ Tallied cs t := by
  induction cs using List.reverseRecOn with
  | nil =>
      intro t h
      cases h
      exact ⟨⟨fun _ h => absurd h List.not_mem_nil, List.nodup_nil⟩, tallied_start⟩
  | append_singleton cs c ih =>
      intro t h
      rw [tallyRows_concat, bind_eq_ok] at h
      obtain ⟨t', ht', hc⟩ := h
      obtain ⟨hcs, htally⟩ := ih t' ht'
      exact addRow_tallied hcs htally hc

theorem tallyRows_acceptable (cs : List ResultCells) : Acceptable cs → ∃ t, tallyRows py cs = .ok t := by
  induction cs using List.reverseRecOn with
  | nil => exact fun _ => ⟨_, rfl⟩
  | append_singleton cs c ih =>
      intro h
      obtain ⟨hcs, hc, hnew⟩ := acceptable_concat.mp h
      obtain ⟨t, ht⟩ := ih hcs
      obtain ⟨t', ht'⟩ : ∃ t', addRow py t c.row = .ok t' := addRow_good hcs (tallyRows_ok cs t ht).2 hc hnew
      exact ⟨t', by rw [tallyRows_concat, ht]; exact ht'⟩

theorem contractual_tallyRows (cs : List ResultCells) :
    Contractual (· = .invalidOperation) (tallyRows py cs) := by
  induction cs using List.reverseRecOn with
  | nil => exact contractual_ok _
  | append_singleton cs c ih =>
      rw [tallyRows_concat]
      exact ih.bind fun t _ => contractual_addRow t c

/-- The first row that cannot be taken decides, and only an overflow is not a contract error. -/
theorem tallyRows_invalid (cs : List ResultCells) : tallyRows py cs = .error .invalidOperation →
    ∃ c ∈ cs, c.Overflows := by
  induction cs using List.reverseRecOn with
  | nil => exact fun h => ok_of_error h.symm
  | append_singleton cs c ih =>
      intro h
      rw [tallyRows_concat, bind_eq_error] at h
      rcases h with h | ⟨t, ht, h⟩
      · obtain ⟨b, hb, hover⟩ := ih h
        exact ⟨b, List.mem_append_left _ hb, hover⟩
      · obtain ⟨hcs, htally⟩ := tallyRows_ok cs t ht
        exact ⟨c, List.mem_append_right _ (List.mem_singleton_self c), ((addRow_invalid hcs htally).mp h).1⟩

/-- A row that overflows ends the loop when it comes first. -/
theorem tallyRows_overflow (hc : c.Overflows) (rest : List ResultCells) :
    tallyRows py (c :: rest) = .error .invalidOperation := by
  have hfirst : addRow py Tally.start c.row = .error .invalidOperation :=
    (addRow_invalid ⟨fun _ h => absurd h List.not_mem_nil, List.nodup_nil⟩ tallied_start).mpr
      ⟨hc, fun _ h => absurd h List.not_mem_nil⟩
  rw [tallyRows, List.map_cons, List.foldlM_cons, hfirst]
  rfl

/-! ### The totals -/

/-- The sums over the rows are the totals of the sources. -/
structure Reconciled (cs : List ResultCells) (x : TotalsCells) : Prop where
  matched : x.unmatchedOrders = 0
  revenue : ∃ m, x.factRevenue = some m ∧ 0 < m.hundredths ∧ m.hundredths.natAbs < 10 ^ precision ∧
    (cs.map ResultCells.hundredths).sum = m.hundredths.natAbs
  lines : 0 < x.factLineCount ∧ (cs.map fun c => c.lineCount.getD 0).sum = x.factLineCount
  orders : 0 < x.factOrderCount ∧ (cs.map fun c => c.orderCount.getD 0).sum = x.factOrderCount

/-- The totals are compared, and the context does not hold the revenue of the sources. -/
structure TotalsCells.Overflows (x : TotalsCells) : Prop where
  matched : x.unmatchedOrders = 0
  revenue : ∃ m, x.factRevenue = some m ∧ 10 ^ precision ≤ m.hundredths.natAbs

theorem Reconciled.perm {cs cs' : List ResultCells} {x : TotalsCells} (h : Reconciled cs x) (hp : cs'.Perm cs) :
    Reconciled cs' x := by
  obtain ⟨hm, hr, hl, ho⟩ := h
  refine ⟨hm, ?_, ?_, ?_⟩
  · rwa [(hp.map _).sum_eq]
  · rwa [(hp.map _).sum_eq]
  · rwa [(hp.map _).sum_eq]

variable {x : TotalsCells}

/-- **No rounding on the way hides a difference.** -/
theorem reconcile_eq_ok (ht : Tallied cs t) {u : Unit} : reconcile py t x.totals = .ok u ↔ Reconciled cs x := by
  have hsame : ∀ m : Money, 0 < m.hundredths → m.hundredths.natAbs < 10 ^ precision →
      (t.revenue.same (Dec.scaled m.hundredths (-2)) = true ↔
        (cs.map ResultCells.hundredths).sum = m.hundredths.natAbs) := by
    intro m hpos hfits
    have := ht.revenue.same_iff hfits
    rwa [Int.natAbs_of_nonneg hpos.le] at this
  simp only [reconcile, TotalsCells.totals, bind_eq_ok, require_eq_ok, beq_iff_eq, decimal_eq_ok,
    ht.lines, ht.orders]
  constructor
  · rintro ⟨-, hmatched, d, ⟨m, hm, hpos, hfits, rfl⟩, -, hrevenue, -, hl, -, hlines, -, ho, horders⟩
    exact ⟨hmatched, ⟨m, hm, hpos, hfits, (hsame m hpos hfits).mp hrevenue⟩,
      ⟨of_decide_eq_true hl, hlines⟩, ⟨of_decide_eq_true ho, horders⟩⟩
  · rintro ⟨hmatched, ⟨m, hm, hpos, hfits, hrevenue⟩, ⟨hl, hlines⟩, ⟨ho, horders⟩⟩
    exact ⟨(), hmatched, _, ⟨m, hm, hpos, hfits, rfl⟩, (), (hsame m hpos hfits).mpr hrevenue, (),
      decide_eq_true hl, (), hlines, (), decide_eq_true ho, horders⟩

theorem reconcile_invalid : reconcile py t x.totals = .error .invalidOperation ↔ x.Overflows := by
  simp only [reconcile, TotalsCells.totals, bind_eq_error, require_eq_error, require_eq_ok, beq_iff_eq,
    decimal_invalid, decimal_eq_ok, reduceCtorEq, and_false, false_or, or_false, exists_false, exists_const]
  exact ⟨fun h => ⟨h.1, h.2⟩, fun h => ⟨h.matched, h.revenue⟩⟩

theorem contractual_reconcile : Contractual (· = .invalidOperation) (reconcile py t x.totals) :=
  (contractual_require _ _).bind fun _ _ => contractual_decimal.bind fun _ _ =>
    (contractual_require _ _).bind fun _ _ => (contractual_require _ _).bind fun _ _ =>
      (contractual_require _ _).bind fun _ _ => (contractual_require _ _).bind fun _ _ => contractual_require _ _

/-! ### The artifact -/

/-- The arguments of a call apart from the rows. -/
structure Inputs where
  provenance : Provenance
  schemas : Both Rows
  totals : TotalsCells
  snapshotsBefore : Snapshots
  snapshotsAfter : Snapshots
  provenanceAfter : Provenance
  queryIds : List Str

/-- `build_tpch_artifact` over typed cells. -/
def Inputs.build (py : Python) (x : Inputs) (cs : List ResultCells) : Except Exn Artifact :=
  buildTpchArtifact py x.provenance x.schemas (cs.map ResultCells.row) x.totals.totals x.snapshotsBefore
    x.snapshotsAfter x.provenanceAfter x.queryIds

/-- What is checked before the first row is looked at. -/
structure Inputs.Preliminaries (py : Python) (x : Inputs) (cs : List ResultCells) : Prop where
  schemas : validateTpchSchemas py x.schemas.dimCustomer x.schemas.fctOrders = .ok ()
  provenance : x.provenanceAfter = x.provenance
  snapshots : 0 < x.snapshotsBefore.dimCustomer ∧ 0 < x.snapshotsBefore.fctOrders ∧
    x.snapshotsAfter = x.snapshotsBefore
  five : cs.length = 5

def sortedEntries (cs : List ResultCells) : List ResultRow :=
  (cs.map ResultCells.entry).insertionSort fun a b => a.segment ≤ b.segment

/-- The artifact before its digest is known. -/
def Inputs.draft (x : Inputs) (cs : List ResultCells) : Artifact :=
  ⟨sortedEntries cs, x.provenance, x.snapshotsBefore, x.queryIds, []⟩

/-- The checks before the rows, in one. -/
def Inputs.preliminaries (py : Python) (x : Inputs) (cs : List ResultCells) : Except Exn Snapshots := do
  validateTpchSchemas py x.schemas.dimCustomer x.schemas.fctOrders
  require (x.provenanceAfter == x.provenance) (.contract "TPC-H provenance changed during the task")
  let before ← checkSnapshots x.snapshotsBefore
  let after ← checkSnapshots x.snapshotsAfter
  require (after == before) (.contract "TPC-H snapshot changed during the task")
  require (cs.length == 5) (.contract "TPC-H result must contain five market segments")
  return before

theorem build_eq (x : Inputs) (cs : List ResultCells) :
    x.build py cs = (x.preliminaries py cs >>= fun before => do
      let tally ← tallyRows py cs
      reconcile py tally x.totals.totals
      let queryIds ← checkQueryIds x.queryIds
      finishArtifact ⟨tally.rows.insertionSort fun a b => a.segment ≤ b.segment, x.provenance, before, queryIds, []⟩
        tpchArtifactMaxBytes) := by
  simp only [Inputs.build, buildTpchArtifact, Inputs.preliminaries, List.length_map, bind_assoc, pure_bind]

theorem preliminaries_eq_ok {x : Inputs} {before : Snapshots} :
    x.preliminaries py cs = .ok before ↔ x.Preliminaries py cs ∧ before = x.snapshotsBefore := by
  simp only [Inputs.preliminaries, checkSnapshots, bind_eq_ok, require_eq_ok, beq_iff_eq, pure_eq_ok]
  constructor
  · rintro ⟨⟨⟩, hschemas, -, hprovenance, _, ⟨-, hd, -, hf, rfl⟩, _, ⟨-, -, -, -, rfl⟩, -, hsame, -, hfive, rfl⟩
    exact ⟨⟨hschemas, hprovenance, ⟨of_decide_eq_true hd, of_decide_eq_true hf, hsame⟩, hfive⟩, rfl⟩
  · rintro ⟨⟨hschemas, hprovenance, ⟨hd, hf, hsame⟩, hfive⟩, rfl⟩
    have hd' := decide_eq_true hd
    have hf' := decide_eq_true hf
    exact ⟨(), hschemas, (), hprovenance, _, ⟨(), hd', (), hf', rfl⟩, _,
      ⟨(), by rw [hsame]; exact hd', (), by rw [hsame]; exact hf', rfl⟩, (), hsame, (), hfive, rfl⟩

section
variable {other : Exn → Prop}

theorem contractual_checkAll {α β : Type} {f : α → Except Exn β} (hf : ∀ a, Contractual other (f a)) :
    ∀ xs : List α, Contractual other (checkAll f xs) := by
  intro xs
  induction xs with
  | nil => exact contractual_ok _
  | cons a xs ih => exact (hf a).bind fun _ _ => ih.bind fun _ _ => contractual_ok _

theorem contractual_schemaOf (rows : Rows) : Contractual other (schemaOf py rows) := by
  refine contractual_checkAll (fun row => ?_) rows
  split
  · exact contractual_ok _
  · exact contractual_contract _

theorem contractual_preliminaries (x : Inputs) (cs : List ResultCells) :
    Contractual other (x.preliminaries py cs) := by
  have hschemas : Contractual other (validateTpchSchemas py x.schemas.dimCustomer x.schemas.fctOrders) :=
    (contractual_schemaOf _).bind fun _ _ => (contractual_require _ _).bind fun _ _ =>
      (contractual_schemaOf _).bind fun _ _ => contractual_require _ _
  have hsnapshots : ∀ v, Contractual other (checkSnapshots v) := fun v =>
    (contractual_require _ _).bind fun _ _ => (contractual_require _ _).bind fun _ _ => contractual_ok _
  exact hschemas.bind fun _ _ => (contractual_require _ _).bind fun _ _ => (hsnapshots _).bind fun _ _ =>
    (hsnapshots _).bind fun _ _ => (contractual_require _ _).bind fun _ _ => (contractual_require _ _).bind fun _ _ =>
      contractual_ok _

theorem contractual_checkQueryIds (ids : List Str) : Contractual other (checkQueryIds ids) :=
  (contractual_require _ _).bind fun _ _ => (contractual_require _ _).bind fun _ _ => contractual_ok _

theorem contractual_finishArtifact (a : Artifact) (n : Nat) : Contractual other (finishArtifact a n) :=
  (contractual_orElse _ _).bind fun _ _ => (contractual_orElse _ _).bind fun _ _ =>
    (contractual_require _ _).bind fun _ _ => contractual_ok _

end

/-! ### The outcome of a call -/

theorem contractual_build (x : Inputs) (cs : List ResultCells) :
    Contractual (· = .invalidOperation) (x.build py cs) := by
  rw [build_eq]
  exact (contractual_preliminaries x cs).bind fun _ _ => (contractual_tallyRows cs).bind fun _ _ =>
    contractual_reconcile.bind fun _ _ => (contractual_checkQueryIds _).bind fun _ _ => contractual_finishArtifact _ _

/-- **When an artifact is returned.**  Of the rows only their multiset is in the condition. -/
theorem build_eq_ok {x : Inputs} {a : Artifact} : x.build py cs = .ok a ↔
    x.Preliminaries py cs ∧ Acceptable cs ∧ Reconciled cs x.totals ∧
      checkQueryIds x.queryIds = .ok x.queryIds ∧ finishArtifact (x.draft cs) tpchArtifactMaxBytes = .ok a := by
  simp only [build_eq, bind_eq_ok, preliminaries_eq_ok]
  constructor
  · rintro ⟨_, ⟨hpre, rfl⟩, t, ht, ⟨⟩, hrec, ids, hids, hfin⟩
    obtain ⟨hcs, htally⟩ := tallyRows_ok cs t ht
    obtain rfl := checkQueryIds_eq_ok hids
    rw [htally.rows] at hfin
    exact ⟨hpre, hcs, (reconcile_eq_ok htally).mp hrec, hids, hfin⟩
  · rintro ⟨hpre, hcs, hrec, hids, hfin⟩
    obtain ⟨t, ht⟩ : ∃ t, tallyRows py cs = .ok t := tallyRows_acceptable cs hcs
    obtain ⟨-, htally⟩ := tallyRows_ok cs t ht
    refine ⟨_, ⟨hpre, rfl⟩, t, ht, (), (reconcile_eq_ok htally).mpr hrec, _, hids, ?_⟩
    rw [htally.rows]
    exact hfin

/-- A call comes to a number that the context does not hold: in a row that it looks at, or in the
totals once the rows are taken. -/
def Inputs.Overflows (py : Python) (x : Inputs) (cs : List ResultCells) : Prop :=
  x.Preliminaries py cs ∧ ((∃ c ∈ cs, c.Overflows) ∨ Acceptable cs ∧ x.totals.Overflows)

theorem overflows_of_build {x : Inputs} (h : x.build py cs = .error .invalidOperation) : x.Overflows py cs := by
  rw [build_eq, bind_eq_error] at h
  rcases h with h | ⟨before, hpre, h⟩
  · exact absurd h (contractual_preliminaries x cs).ne_invalid
  refine ⟨(preliminaries_eq_ok.mp hpre).1, ?_⟩
  rcases bind_eq_error.mp h with h | ⟨t, ht, h⟩
  · exact .inl (tallyRows_invalid cs h)
  rcases bind_eq_error.mp h with h | ⟨_, -, h⟩
  · exact .inr ⟨(tallyRows_ok cs t ht).1, reconcile_invalid.mp h⟩
  · exact absurd h ((contractual_checkQueryIds _).bind fun _ _ => contractual_finishArtifact _ _).ne_invalid

/-- Some order of the rows leads to the number. -/
theorem build_of_overflows {x : Inputs} (h : x.Overflows py cs) :
    ∃ cs', cs'.Perm cs ∧ x.build py cs' = .error .invalidOperation := by
  obtain ⟨hpre, ⟨c, hc, hover⟩ | ⟨hcs, hover⟩⟩ := h
  · obtain ⟨before, after, rfl⟩ := List.append_of_mem hc
    have hperm : (c :: (before ++ after)).Perm (before ++ c :: after) := List.perm_middle.symm
    have hpre' : x.preliminaries py (c :: (before ++ after)) = .ok x.snapshotsBefore :=
      preliminaries_eq_ok.mpr ⟨⟨hpre.schemas, hpre.provenance, hpre.snapshots, by rw [hperm.length_eq, hpre.five]⟩, rfl⟩
    refine ⟨_, hperm, ?_⟩
    rw [build_eq, hpre', tallyRows_overflow hover]
    rfl
  · obtain ⟨t, ht⟩ : ∃ t, tallyRows py cs = .ok t := tallyRows_acceptable cs hcs
    refine ⟨cs, List.Perm.refl _, ?_⟩
    rw [build_eq, preliminaries_eq_ok.mpr ⟨hpre, rfl⟩, ht]
    show (reconcile py t x.totals.totals >>= _) = _
    rw [reconcile_invalid.mpr hover]
    rfl

/-! ### Orders of the rows -/

theorem sortedEntries_perm {cs' : List ResultCells} (hcs : Acceptable cs) (hp : cs'.Perm cs) :
    sortedEntries cs' = sortedEntries cs := by
  have hentries : (cs'.map ResultCells.entry).Perm (cs.map ResultCells.entry) := hp.map _
  have hsegments : ((sortedEntries cs).map ResultRow.segment).Nodup := by
    refine (((List.perm_insertionSort _ _).map _).nodup_iff).mpr ?_
    rw [List.map_map]
    refine List.Nodup.of_map some ?_
    rw [List.map_map]
    refine (List.map_congr_left fun c hc => ?_) ▸ hcs.distinct
    obtain ⟨s, hs, -⟩ := (hcs.good c hc).segment
    simp [ResultCells.entry, hs]
  have hperm : (sortedEntries cs').Perm (sortedEntries cs) :=
    (List.perm_insertionSort _ _).trans (hentries.trans (List.perm_insertionSort _ _).symm)
  refine hperm.eq_of_pairwise (fun a b ha hb hab hba => ?_) (List.pairwise_insertionSort _ _)
    (List.pairwise_insertionSort _ _)
  exact List.inj_on_of_nodup_map hsegments (hperm.mem_iff.mp ha) hb (le_antisymm hab hba)

/-- An artifact that comes of one order of the rows comes of every order. -/
theorem build_perm {x : Inputs} {a : Artifact} {cs' : List ResultCells} (hp : cs'.Perm cs)
    (h : x.build py cs = .ok a) : x.build py cs' = .ok a := by
  obtain ⟨hpre, hcs, hrec, hids, hfin⟩ := build_eq_ok.mp h
  have hdraft : x.draft cs' = x.draft cs := by rw [Inputs.draft, Inputs.draft, sortedEntries_perm hcs hp]
  exact build_eq_ok.mpr ⟨⟨hpre.schemas, hpre.provenance, hpre.snapshots, by rw [hp.length_eq, hpre.five]⟩,
    hcs.perm hp, hrec.perm hp, hids, hdraft ▸ hfin⟩

/-- The rows of the artifact spell revenues whose sum is the total of the sources, and so do their
counts. -/
def Artifact.Exact (a : Artifact) (x : TotalsCells) : Prop :=
  (∃ ns : List Int, a.rows.map ResultRow.totalRevenue = ns.map hundredths ∧
      x.factRevenue.map Money.hundredths = some ns.sum) ∧
    (a.rows.map ResultRow.lineCount).sum = x.factLineCount ∧
    (a.rows.map ResultRow.orderCount).sum = x.factOrderCount

theorem sum_hundredths (cs : List ResultCells) :
    (cs.map fun c => (c.hundredths : Int)).sum = ((cs.map ResultCells.hundredths).sum : Nat) := by
  induction cs with
  | nil => rfl
  | cons c cs ih => simp [ih]

theorem exact_of_build {x : Inputs} {a : Artifact} (h : x.build py cs = .ok a) : a.Exact x.totals := by
  obtain ⟨-, -, ⟨-, ⟨m, hm, hpos, -, hsum⟩, ⟨-, hlines⟩, ⟨-, horders⟩⟩, -, hfin⟩ := build_eq_ok.mp h
  have hrows : a.rows = sortedEntries cs := (finishArtifact_eq_ok hfin).1
  -- the rows of the artifact are the entries of the cells in another order
  obtain ⟨ds, hds, hentries⟩ : ∃ ds : List ResultCells, ds.Perm cs ∧ sortedEntries cs = ds.map ResultCells.entry := by
    refine ⟨cs.insertionSort fun a b => a.entry.segment ≤ b.entry.segment, List.perm_insertionSort _ _, ?_⟩
    exact (List.map_insertionSort (fun a b => a.entry.segment ≤ b.entry.segment) (fun a b => a.segment ≤ b.segment)
      ResultCells.entry cs fun _ _ _ _ => Iff.rfl).symm
  rw [Artifact.Exact, hrows, hentries]
  refine ⟨⟨ds.map fun c => (c.hundredths : Int), ?_, ?_⟩, ?_, ?_⟩
  · simp [ResultCells.entry, Function.comp_def]
  · rw [hm, sum_hundredths, (hds.map _).sum_eq, hsum]
    simp only [Option.map_some, Option.some.injEq]
    omega
  · rw [List.map_map, ← hlines]
    exact (hds.map _).sum_eq
  · rw [List.map_map, ← horders]
    exact (hds.map _).sum_eq

/-- A contract error, or an artifact whose rows sum to the totals. -/
def Inputs.Settled (py : Python) (x : Inputs) (cs : List ResultCells) : Prop :=
  (∃ m, x.build py cs = .error (.contract m)) ∨ ∃ a, x.build py cs = .ok a ∧ a.Exact x.totals

/-- Another order of the rows gives the same artifact, or is rejected too. -/
def Inputs.Orderless (py : Python) (x : Inputs) (cs : List ResultCells) : Prop :=
  ∀ cs', cs'.Perm cs → (∀ a, x.build py cs' = .ok a ↔ x.build py cs = .ok a) ∧
    ((∃ m, x.build py cs' = .error (.contract m)) ↔ ∃ m, x.build py cs = .error (.contract m))

theorem settled_of_fits {x : Inputs} (h : ¬ x.Overflows py cs) : x.Settled py cs := by
  cases hb : x.build py cs with
  | ok a => exact .inr ⟨a, hb, exact_of_build hb⟩
  | error e =>
      rcases contractual_build x cs e hb with rfl | ⟨m, rfl⟩
      · exact absurd (overflows_of_build hb) h
      · exact .inl ⟨m, hb⟩

theorem Inputs.Overflows.perm {x : Inputs} {cs' : List ResultCells} (h : x.Overflows py cs) (hp : cs.Perm cs') :
    x.Overflows py cs' := by
  obtain ⟨hpre, hrest⟩ := h
  refine ⟨⟨hpre.schemas, hpre.provenance, hpre.snapshots, by rw [← hp.length_eq, hpre.five]⟩, ?_⟩
  rcases hrest with ⟨c, hc, hover⟩ | ⟨hcs, hover⟩
  · exact .inl ⟨c, hp.mem_iff.mp hc, hover⟩
  · exact .inr ⟨hcs.perm hp.symm, hover⟩

theorem not_orderless_of_overflows {x : Inputs} (h : x.Overflows py cs) : ¬ (x.Settled py cs ∧ x.Orderless py cs) := by
  rintro ⟨hsettled, horder⟩
  obtain ⟨cs', hp, hinvalid⟩ := build_of_overflows h
  obtain ⟨hok, hrejected⟩ := horder cs' hp
  rcases hsettled with hm | ⟨a, ha, -⟩
  · obtain ⟨m, hm⟩ := hrejected.mpr hm
    rw [hinvalid] at hm
    cases hm
  · rw [(hok a).mpr ha] at hinvalid
    cases hinvalid

/-- **Reconciliation is exact, and independent of the order, where no number is beyond the context.** -/
theorem reconciliation_exact_iff (py : Python) (x : Inputs) (cs : List ResultCells) :
    (x.Settled py cs ∧ x.Orderless py cs) ↔ ¬ x.Overflows py cs := by
  refine ⟨fun h hover => not_orderless_of_overflows hover h, fun h => ⟨settled_of_fits h, fun cs' hp => ⟨fun a =>
    ⟨build_perm hp.symm, build_perm hp⟩, ?_⟩⟩⟩
  have hrejected : ∀ ds ds' : List ResultCells, ds.Perm cs → ds'.Perm cs →
      (∃ m, x.build py ds = .error (.contract m)) → ∃ m, x.build py ds' = .error (.contract m) := by
    rintro ds ds' hds hds' ⟨m, hm⟩
    have hsettled : x.Settled py ds' := settled_of_fits fun hover => h (hover.perm hds')
    rcases hsettled with h' | ⟨a, ha, -⟩
    · exact h'
    · rw [build_perm (hds.trans hds'.symm) ha] at hm
      cases hm
  exact ⟨hrejected cs' cs hp (List.Perm.refl _), hrejected cs cs' (List.Perm.refl _) hp⟩

end

/-! ### A number beyond the context -/

/-- The revenue `100000000000000000000000000.00` is a `decimal(38,2)`. -/
def hugeRevenue : Money := ⟨10 ^ 28, by decide⟩

def hugeRows : List ResultCells :=
  (List.range 5).map fun k => ⟨some [65 + k], some hugeRevenue, some 2, some 1⟩

def hugeInputs : Inputs where
  provenance := sampleProvenance
  schemas := ⟨tpchDimSchema.map fun c => [.str c.1, .str c.2], tpchFactSchema.map fun c => [.str c.1, .str c.2]⟩
  totals := ⟨5, some hugeRevenue, 10, 0⟩
  snapshotsBefore := ⟨7, 8⟩
  snapshotsAfter := ⟨7, 8⟩
  provenanceAfter := sampleProvenance
  queryIds := (List.range 7).map fun k => [65 + k]

theorem hugeInputs_overflows : hugeInputs.Overflows plainPython hugeRows := by
  refine ⟨⟨rfl, rfl, ⟨by decide, by decide, rfl⟩, by decide⟩, .inl ⟨⟨some [65], some hugeRevenue, some 2, some 1⟩,
    List.mem_map.mpr ⟨0, by decide, rfl⟩, ⟨⟨[65], rfl, by decide⟩, ⟨hugeRevenue, rfl, by decide⟩⟩⟩⟩

/-- Not every call ends in a contract error or an exact artifact. -/
theorem reconciliation_raises : ¬ ∀ (py : Python) (x : Inputs) (cs : List ResultCells),
    x.Settled py cs ∧ x.Orderless py cs :=
  fun h => not_orderless_of_overflows hugeInputs_overflows (h plainPython hugeInputs hugeRows)

end TrinoBi
