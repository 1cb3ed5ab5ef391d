/-
The star schema conserves the facts.

Accepted orders have distinct keys and customers, accepted lines have orders, and no key is
`NULL`.  So the join pairs each line with one order (`Joins.length_inner`), its groups are
the lines of each order, and a fact row has one customer.

What can be lost is the whole table: the sum of an order's prices has to fit
`decimal(25,2)`.
-/
import DataEngLab.Tpch.StarSchema

namespace Tpch

open Lib

/-! ### Accepted sources -/

/-- What the checks say of the rows. -/
structure Accepted (customers : List Customer) (orders : List Order) (lines : List Line) : Prop where
  custkeys : (customers.map Customer.custkey).Nodup
  orderkeys : (orders.map Order.orderkey).Nodup
  customer : ∀ o ∈ orders, ∃ c ∈ customers, ∃ k, o.custkey = some k ∧ c.custkey = some k
  order : ∀ l ∈ lines, ∃ o ∈ orders, ∃ k, l.orderkey = some k ∧ o.orderkey = some k

theorem eq_iff {a b : Option Int} : Sql.eq a b = some true ↔ ∃ k, a = some k ∧ b = some k := by
  cases a with
  | none => simp [Sql.eq]
  | some x =>
      rw [Sql.eq_some_left]
      simp

theorem requireKeys_ok {ρ : Type} {rows : List ρ} {key : ρ → Option Int} {source : String} {u : Unit}
    (h : requireKeys rows (fun r => [key r]) source = .ok u) : (rows.map key).Nodup := by
  simp only [requireKeys, require, bind_eq_ok, require_eq_ok, decide_eq_true_eq] at h
  obtain ⟨-, -, hnodup⟩ := h
  have hcomp : rows.map (fun r => [key r]) = (rows.map key).map fun k => [k] := by simp [Function.comp_def]
  rw [hcomp] at hnodup
  exact List.Nodup.of_map _ hnodup

theorem validateSources_ok {customer orders lineitem : Frame} (h : validateSources customer orders lineitem = .ok ()) :
    Accepted (customersOf customer) (ordersOf orders) (linesOf lineitem) := by
  simp only [validateSources, bind_eq_ok] at h
  obtain ⟨-, -, -, -, -, -, _, hcustomers, _, horders, -, -, _, hcustomer, horder⟩ := h
  simp only [require, require_eq_ok, List.isEmpty_iff, Joins.leftAnti_eq_nil, ofCustomer, ofOrder, eq_iff] at hcustomer horder
  refine ⟨requireKeys_ok hcustomers, requireKeys_ok horders, hcustomer, fun l hl => ?_⟩
  obtain ⟨o, ho, k, hk, hk'⟩ := horder l hl
  exact ⟨o, ho, k, hk', hk⟩

/-! ### Sums -/

/-- The sum of the values that are there. -/
def sumOf (values : List (Option Int)) : Option Int :=
  if values.all Option.isNone then none else some (values.filterMap id).sum

theorem sumDecimal_ok {values : List (Option Int)} : ∀ {acc r : Option Int},
    values.foldlM addDecimal acc = .ok r →
      r = (if values.all Option.isNone then acc else some (acc.getD 0 + (values.filterMap id).sum)) := by
  induction values with
  | nil =>
      intro acc r h
      cases h
      rfl
  | cons v values ih =>
      intro acc r h
      rw [List.foldlM_cons, bind_eq_ok] at h
      obtain ⟨next, hnext, hrest⟩ := h
      have hr := ih hrest
      cases v with
      | none =>
          cases hnext
          simpa using hr
      | some n =>
          simp only [addDecimal] at hnext
          split at hnext
          · cases hnext
            rw [hr]
            by_cases hall : values.all Option.isNone = true
            · have hnone : values.filterMap (fun x => x) = [] := by
                refine List.filterMap_eq_nil_iff.mpr fun x hx => ?_
                simpa using List.all_eq_true.mp hall x hx
              simp [hall, hnone]
            · simp [hall, Int.add_assoc]
          · cases hnext

theorem sumDecimal_eq {values : List (Option Int)} {r : Option Int} (h : sumDecimal values = .ok r) :
    r = sumOf values := by
  rw [sumDecimal_ok h, sumOf]
  simp

/-- What fits the type of a sum. -/
def Fits (r : Option Int) : Prop := ∀ n, r = some n → n.natAbs < 10 ^ sumPrecision

theorem sumDecimal_fits {values : List (Option Int)} : ∀ {acc r : Option Int}, Fits acc →
    values.foldlM addDecimal acc = .ok r → Fits r := by
  induction values with
  | nil =>
      intro acc r hacc h
      cases h
      exact hacc
  | cons v values ih =>
      intro acc r hacc h
      rw [List.foldlM_cons, bind_eq_ok] at h
      obtain ⟨next, hnext, hrest⟩ := h
      refine ih ?_ hrest
      cases v with
      | none =>
          cases hnext
          exact hacc
      | some n =>
          simp only [addDecimal] at hnext
          split at hnext
          · rename_i hlt
            cases hnext
            intro m hm
            cases hm
            exact hlt
          · cases hnext

/-- How much the values can add up to, whatever their signs and their order. -/
def magnitude (values : List (Option Int)) : Nat := (values.map fun v => (v.getD 0).natAbs).sum

/-- Values that cannot add up to too much have a sum. -/
theorem sumDecimal_total {values : List (Option Int)} : ∀ acc : Option Int,
    (acc.getD 0).natAbs + magnitude values < 10 ^ sumPrecision → ∃ r, values.foldlM addDecimal acc = .ok r := by
  induction values with
  | nil => exact fun _ _ => ⟨_, rfl⟩
  | cons v values ih =>
      intro acc h
      simp only [magnitude, List.map_cons, List.sum_cons] at h
      rw [List.foldlM_cons]
      cases v with
      | none => exact ih acc (by simpa [magnitude] using h)
      | some n =>
          simp only [Option.getD_some] at h
          have hlt : (acc.getD 0 + n).natAbs < 10 ^ sumPrecision := by omega
          obtain ⟨r, hr⟩ := ih (some (acc.getD 0 + n)) (by
            simp only [Option.getD_some, magnitude]
            omega)
          refine ⟨r, ?_⟩
          simp only [addDecimal, if_pos hlt]
          exact hr

/-! ### The fact table -/

/-- The lines of an order. -/
def linesFor (lines : List Line) (o : Order) : List Line := lines.filter fun l => (ofOrder o l).holds

/-- What the fact table has to be. -/
structure Conserves (customers : List Customer) (orders : List Order) (lines : List Line) (facts : List FactRow) :
    Prop where
  /-- one row for each order with a line, and no other row -/
  rows : (facts.map FactRow.order).Perm (orders.filter fun o => !(linesFor lines o).isEmpty)
  /-- the count of the order's lines, and the exact sum of the prices that are there -/
  measures : ∀ f ∈ facts, f.lineCount = (linesFor lines f.order).length ∧
    f.revenue = sumOf ((linesFor lines f.order).map Line.extendedprice)
  total : (facts.map FactRow.lineCount).sum = lines.length
  customer : ∀ f ∈ facts, (customers.countP fun c => (ofCustomer f.order c).holds) = 1

section
variable {customers : List Customer} {orders : List Order} {lines : List Line} {facts : List FactRow}

theorem Accepted.orders_nodup (h : Accepted customers orders lines) : orders.Nodup := List.Nodup.of_map _ h.orderkeys

/-- Each line has one order. -/
theorem Accepted.one_order (h : Accepted customers orders lines) {l : Line} (hl : l ∈ lines) :
    (orders.countP fun o => (ofOrder o l).holds) = 1 := by
  obtain ⟨o, ho, k, hk, hk'⟩ := h.order l hl
  rw [← Joins.countP_key h.orderkeys ho]
  refine List.countP_congr fun x _ => ?_
  rw [Truth.holds_iff, ofOrder, eq_iff, decide_eq_true_eq, hk']
  constructor
  · rintro ⟨j, hj, hj'⟩
    rw [hk] at hj'
    cases hj'
    exact hj
  · intro hx
    exact ⟨k, hx, hk⟩

/-- Each order has one customer. -/
theorem Accepted.one_customer (h : Accepted customers orders lines) {o : Order} (ho : o ∈ orders) :
    (customers.countP fun c => (ofCustomer o c).holds) = 1 := by
  obtain ⟨c, hc, k, hk, hk'⟩ := h.customer o ho
  rw [← Joins.countP_key h.custkeys hc]
  refine List.countP_congr fun x _ => ?_
  rw [Truth.holds_iff, ofCustomer, eq_iff, decide_eq_true_eq, hk']
  constructor
  · rintro ⟨j, hj, hj'⟩
    rw [hk] at hj
    cases hj
    exact hj'
  · intro hx
    exact ⟨k, hk, hx⟩

/-- The orders the join has. -/
theorem mem_joined {o : Order} : o ∈ (Joins.inner ofOrder orders lines).map Prod.fst ↔
    o ∈ orders ∧ linesFor lines o ≠ [] := by
  rw [List.mem_map]
  constructor
  · rintro ⟨⟨o', l⟩, hmem, rfl⟩
    obtain ⟨ho, hl, hholds⟩ := Joins.mem_inner.mp hmem
    exact ⟨ho, List.ne_nil_of_mem (List.mem_filter.mpr ⟨hl, Truth.holds_iff.mpr hholds⟩)⟩
  · rintro ⟨ho, hne⟩
    obtain ⟨l, hl⟩ := List.exists_mem_of_ne_nil _ hne
    obtain ⟨hl, hholds⟩ := List.mem_filter.mp hl
    exact ⟨(o, l), Joins.mem_inner.mpr ⟨ho, hl, Truth.holds_iff.mp hholds⟩, rfl⟩

/-- The row of an order: its lines, and their sum. -/
theorem factRow_ok (h : Accepted customers orders lines) {o : Order} {f : FactRow} (ho : o ∈ orders) :
    factRow (Joins.inner ofOrder orders lines) o = .ok f ↔
      ∃ revenue, sumDecimal ((linesFor lines o).map Line.extendedprice) = .ok revenue ∧
        f = ⟨o, revenue, (linesFor lines o).length⟩ := by
  simp only [factRow, Joins.filter_inner h.orders_nodup ho, bind_eq_ok, pure_eq_ok, List.map_map, List.length_map]
  exact exists_congr fun revenue => and_congr_right fun _ => eq_comm

theorem factRow_group {joined : List (Order × Line)} {o : Order} {f : FactRow} (h : factRow joined o = .ok f) :
    f.order = o ∧ f.lineCount = (joined.filter fun x => x.1 == o).length := by
  simp only [factRow, bind_eq_ok, pure_eq_ok] at h
  obtain ⟨_, -, rfl⟩ := h
  exact ⟨rfl, rfl⟩

/-- The rows are those of the orders in the join, and count the pairs of the join. -/
theorem fact_groups (hfacts : fact orders lines = .ok facts) :
    facts.map FactRow.order = ((Joins.inner ofOrder orders lines).map Prod.fst).dedup ∧
      (facts.map FactRow.lineCount).sum = (Joins.inner ofOrder orders lines).length := by
  have hall := (checkAll_eq_ok.mp hfacts).imp fun _ _ h => factRow_group h
  constructor
  · rw [eq_comm, ← List.forall₂_eq_eq_eq, List.forall₂_map_right_iff]
    exact hall.imp fun _ _ h => h.1.symm
  · rw [← Joins.sum_groups Prod.fst]
    refine congrArg List.sum (Eq.symm ?_)
    rw [← List.forall₂_eq_eq_eq, List.forall₂_map_right_iff, List.forall₂_map_left_iff]
    exact hall.imp fun _ _ h => h.2.symm

/-- **A fact table that is returned conserves the facts.** -/
theorem fact_conserves (h : Accepted customers orders lines) (hfacts : fact orders lines = .ok facts) :
    Conserves customers orders lines facts := by
  obtain ⟨hrows, htotal⟩ := fact_groups hfacts
  have hrow : ∀ f ∈ facts, f.order ∈ orders ∧ factRow (Joins.inner ofOrder orders lines) f.order = .ok f := by
    intro f hf
    obtain ⟨o, ho, hof⟩ := checkAll_mem hfacts hf
    obtain rfl := (factRow_group hof).1
    exact ⟨(mem_joined.mp (List.mem_dedup.mp ho)).1, hof⟩
  refine ⟨?_, fun f hf => ?_, ?_, fun f hf => h.one_customer (hrow f hf).1⟩
  · rw [hrows, List.perm_ext_iff_of_nodup (List.nodup_dedup _) (h.orders_nodup.filter _)]
    intro o
    rw [List.mem_dedup, mem_joined, List.mem_filter]
    simp
  · obtain ⟨ho, hof⟩ := hrow f hf
    obtain ⟨revenue, hsum, heq⟩ := (factRow_ok h ho).mp hof
    rw [heq]
    exact ⟨rfl, sumDecimal_eq hsum⟩
  · rw [htotal]
    exact Joins.length_inner fun l hl => h.one_order hl

theorem checkAll_total {ε α β : Type} {f : α → Except ε β} {xs : List α} (h : ∀ x ∈ xs, ∃ y, f x = .ok y) :
    ∃ ys, checkAll f xs = .ok ys := by
  induction xs with
  | nil => exact ⟨[], rfl⟩
  | cons x xs ih =>
      obtain ⟨y, hy⟩ := h x (List.mem_cons_self ..)
      obtain ⟨ys, hys⟩ := ih fun x' hx' => h x' (List.mem_cons_of_mem _ hx')
      exact ⟨y :: ys, checkAll_eq_ok.mpr (.cons hy (checkAll_eq_ok.mp hys))⟩

/-- The fact table is returned when no order's prices can add up to too much. -/
theorem fact_total (h : Accepted customers orders lines)
    (hsmall : ∀ o ∈ orders, magnitude ((linesFor lines o).map Line.extendedprice) < 10 ^ sumPrecision) :
    ∃ facts, fact orders lines = .ok facts := by
  have hrow : ∀ o ∈ ((Joins.inner ofOrder orders lines).map Prod.fst).dedup,
      ∃ f, factRow (Joins.inner ofOrder orders lines) o = .ok f := by
    intro o ho
    have ho := (mem_joined.mp (List.mem_dedup.mp ho)).1
    obtain ⟨revenue, hsum⟩ := sumDecimal_total none (by simpa using hsmall o ho)
    exact ⟨_, (factRow_ok h ho).mpr ⟨revenue, hsum, rfl⟩⟩
  exact checkAll_total hrow

end

/-- **The star schema conserves the facts**, and is built unless the prices of an order can add up to more
than the type of the revenue holds. -/
theorem starSchema_conserves {customer orders lineitem : Frame}
    (h : validateSources customer orders lineitem = .ok ()) :
    (∀ facts, fact (ordersOf orders) (linesOf lineitem) = .ok facts →
      Conserves (dimension customer) (ordersOf orders) (linesOf lineitem) facts) ∧
    ((∀ o ∈ ordersOf orders, magnitude ((linesFor (linesOf lineitem) o).map Line.extendedprice) < 10 ^ sumPrecision) →
      ∃ facts, fact (ordersOf orders) (linesOf lineitem) = .ok facts) :=
  ⟨fun _ hfacts => fact_conserves (validateSources_ok h) hfacts, fact_total (validateSources_ok h)⟩

/-! ### One customer, one order -/

def oneCustomer : Frame where
  schema := [⟨"c_custkey", .long, true⟩, ⟨"c_name", .string, true⟩, ⟨"c_nationkey", .integer, true⟩,
    ⟨"c_mktsegment", .string, true⟩]
  rows := [[.long 1, .string [], .null, .string []]]
  conforms := by simp [Conforms, Cell.fits]

def oneOrder : Frame where
  schema := [⟨"o_orderkey", .long, true⟩, ⟨"o_custkey", .long, true⟩, ⟨"o_orderdate", .date, true⟩]
  rows := [[.long 7, .long 1, .null]]
  conforms := by simp [Conforms, Cell.fits]

/-- `n` lines of the order, each at the highest price a `decimal(15,2)` has. -/
def dearLines (n : Nat) : Frame where
  schema := [⟨"l_orderkey", .long, true⟩, ⟨"l_linenumber", .long, true⟩, ⟨"l_extendedprice", .decimal 15 2, true⟩]
  rows := (List.range n).map fun k : Nat => [.long 7, .long k, .decimal (10 ^ 15 - 1)]
  conforms r hr := by
    obtain ⟨k, -, rfl⟩ := List.mem_map.mp hr
    simp [Conforms, Cell.fits]

def theOrder : Order := ⟨some 7, some 1, none⟩

theorem ordersOf_oneOrder : ordersOf oneOrder = [theOrder] := rfl

theorem linesOf_dearLines (n : Nat) :
    linesOf (dearLines n) = (List.range n).map fun k : Nat => ⟨some 7, some k, some (10 ^ 15 - 1)⟩ := by
  rw [linesOf, dearLines, List.map_map]
  rfl

theorem dearLines_accepted (n : Nat) : validateSources oneCustomer oneOrder (dearLines n) = .ok () := by
  have hkeys : requireKeys (linesOf (dearLines n)) (fun l => [l.orderkey, l.linenumber]) "lineitem" = .ok () := by
    simp only [requireKeys, require, bind_eq_ok, require_eq_ok, linesOf_dearLines]
    refine ⟨(), ?_, decide_eq_true ?_⟩
    · simp
    · rw [List.map_map]
      refine List.Nodup.map (fun a b hab => ?_) List.nodup_range
      simpa using hab
  have horder : (Joins.leftAnti (fun l o => ofOrder o l) (linesOf (dearLines n)) (ordersOf oneOrder)).isEmpty = true := by
    rw [List.isEmpty_iff, Joins.leftAnti_eq_nil, ordersOf_oneOrder, linesOf_dearLines]
    intro l hl
    obtain ⟨k, -, rfl⟩ := List.mem_map.mp hl
    exact ⟨theOrder, List.mem_singleton_self _, rfl⟩
  simp only [validateSources, bind_eq_ok]
  refine ⟨(), rfl, (), rfl, (), rfl, (), rfl, (), rfl, (), hkeys, (), rfl, ?_⟩
  rw [horder]
  rfl

theorem linesFor_dearLines (n : Nat) : linesFor (linesOf (dearLines n)) theOrder = linesOf (dearLines n) := by
  refine List.filter_eq_self.mpr fun l hl => ?_
  rw [linesOf_dearLines] at hl
  obtain ⟨k, -, rfl⟩ := List.mem_map.mp hl
  rfl

/-- A returned sum fits its type. -/
theorem fact_fits {customers : List Customer} {orders : List Order} {lines : List Line} {facts : List FactRow}
    (h : Accepted customers orders lines) (hfacts : fact orders lines = .ok facts) {o : Order} (ho : o ∈ orders)
    (hne : linesFor lines o ≠ []) : Fits (sumOf ((linesFor lines o).map Line.extendedprice)) := by
  have hmem : o ∈ facts.map FactRow.order := by
    rw [(fact_groups hfacts).1, List.mem_dedup]
    exact mem_joined.mpr ⟨ho, hne⟩
  obtain ⟨f, hf, rfl⟩ := List.mem_map.mp hmem
  obtain ⟨o, -, hof⟩ := checkAll_mem hfacts hf
  obtain rfl := (factRow_group hof).1
  obtain ⟨revenue, hsum, -⟩ := (factRow_ok h ho).mp hof
  rw [← sumDecimal_eq hsum]
  exact sumDecimal_fits (fun _ hn => by cases hn) hsum

theorem sumOf_dearLines (n : Nat) :
    sumOf ((linesOf (dearLines (n + 1))).map Line.extendedprice) = some (((n : Int) + 1) * (10 ^ 15 - 1)) := by
  have hprices : (linesOf (dearLines (n + 1))).map Line.extendedprice =
      List.replicate (n + 1) (some (10 ^ 15 - 1)) := by
    rw [linesOf_dearLines, List.map_map]
    exact List.map_const' .. |>.trans (by rw [List.length_range])
  rw [hprices, sumOf, if_neg (by simp [List.replicate_succ])]
  simp

/-- A line more than the sum has room for. -/
theorem fact_dearLines_overflows {n : Nat} (h : 10 ^ sumPrecision ≤ (n + 1) * (10 ^ 15 - 1)) :
    ¬ ∃ facts, fact (ordersOf oneOrder) (linesOf (dearLines (n + 1))) = .ok facts := by
  rintro ⟨facts, hfacts⟩
  have haccepted := validateSources_ok (dearLines_accepted (n + 1))
  have hne : linesFor (linesOf (dearLines (n + 1))) theOrder ≠ [] := by
    rw [linesFor_dearLines, linesOf_dearLines]
    simp
  have hfits := fact_fits haccepted hfacts (o := theOrder) (by rw [ordersOf_oneOrder]; exact List.mem_singleton_self _) hne
  rw [linesFor_dearLines] at hfits
  have hlt := hfits _ (sumOf_dearLines n)
  have hcast : (((n : Int) + 1) * (10 ^ 15 - 1)).natAbs = (n + 1) * (10 ^ 15 - 1) := by
    rw [Int.natAbs_mul]
    congr 1
  omega

/-- Not every accepted triple of tables has a fact table: ten thousand million and one lines of one order, each at
the highest price, sum to a number of 26 digits. -/
theorem fact_not_total : ¬ ∀ customer orders lineitem : Frame, validateSources customer orders lineitem = .ok () →
    ∃ facts, fact (ordersOf orders) (linesOf lineitem) = .ok facts ∧
      Conserves (dimension customer) (ordersOf orders) (linesOf lineitem) facts := by
  intro h
  obtain ⟨facts, hfacts, -⟩ := h oneCustomer oneOrder (dearLines (10 ^ 10 + 1)) (dearLines_accepted _)
  exact fact_dearLines_overflows (n := 10 ^ 10) (by decide) ⟨facts, hfacts⟩

/-- Three lines of the order are one row. -/
theorem starSchema_conserves_three :
    (∀ facts, fact (ordersOf oneOrder) (linesOf (dearLines 3)) = .ok facts →
      Conserves (dimension oneCustomer) (ordersOf oneOrder) (linesOf (dearLines 3)) facts) ∧
    ∃ facts, fact (ordersOf oneOrder) (linesOf (dearLines 3)) = .ok facts := by
  obtain ⟨hconserves, htotal⟩ := starSchema_conserves (dearLines_accepted 3)
  refine ⟨hconserves, htotal fun o ho => ?_⟩
  rw [ordersOf_oneOrder] at ho
  rw [List.mem_singleton.mp ho]
  decide

end Tpch
