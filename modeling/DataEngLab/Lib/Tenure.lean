/-
Leases in one register.

A register holds one tenure at a time: an owner, whether it is held or given up, and the
span of time it was written for.  It changes in three ways.  An owner that has seen a
tenure that is given up or past its end may take the register from a time at which it saw
that; the owner of a held tenure may move its end; and it may give it up.

Nobody compares clocks with anybody.  That two owners never hold spans that overlap rests
on each change replacing exactly the tenure that was seen: `Succession.disjoint`.
-/
import Mathlib.Order.Basic
import Mathlib.Data.List.Forall2

namespace Lib

variable {O T : Type}

structure Tenure (O T : Type) where
  owner : O
  held : Bool
  start : T
  stop : T

/-- The owner has given up nothing. -/
def Keeps (h : List (Tenure O T)) (o : O) : Prop := ∀ c ∈ h, c.owner = o → c.held = true

theorem Keeps.tail {c : Tenure O T} {h : List (Tenure O T)} {o : O} (hk : Keeps (c :: h) o) : Keeps h o :=
  fun d hd => hk d (List.mem_cons_of_mem c hd)

variable [Preorder T]

/-- `b` may replace `a`. -/
inductive Tenure.Follows : Tenure O T → Tenure O T → Prop where
  | take {a b : Tenure O T} (hseen : a.start ≤ b.start) (hfree : a.held = true → a.stop ≤ b.start)
      (hspan : b.start ≤ b.stop) (hheld : b.held = true) : Follows a b
  | extend {a b : Tenure O T} (howner : b.owner = a.owner) (hwas : a.held = true)
      (hseen : a.start ≤ b.start) (hlater : a.stop ≤ b.stop) (hheld : b.held = true) : Follows a b
  | give {a b : Tenure O T} (howner : b.owner = a.owner) (hwas : a.held = true)
      (hstart : a.start ≤ b.start) (hheld : b.held = false) : Follows a b

/-- Lists that correspond, item by item. -/
theorem exists_right_of_mem {α β : Type} {R : α → β → Prop} {l : List α} {h : List β} (hall : List.Forall₂ R l h)
    {x : α} (hx : x ∈ l) : ∃ b ∈ h, R x b := by
  induction hall with
  | nil => cases hx
  | @cons y b l h hyb _ ih =>
      rcases List.mem_cons.mp hx with rfl | hx
      · exact ⟨b, List.mem_cons_self, hyb⟩
      · obtain ⟨b', hb', hxb'⟩ := ih hx
        exact ⟨b', List.mem_cons_of_mem b hb', hxb'⟩

theorem exists_left_of_mem {α β : Type} {R : α → β → Prop} {l : List α} {h : List β} (hall : List.Forall₂ R l h)
    {b : β} (hb : b ∈ h) : ∃ x ∈ l, R x b :=
  exists_right_of_mem hall.flip hb

/-- What was written to a register, newest first. -/
def Succession : List (Tenure O T) → Prop
  | [] => True
  | [_] => True
  | b :: a :: rest => a.Follows b ∧ Succession (a :: rest)

theorem Succession.tail {c : Tenure O T} {h : List (Tenure O T)} (hs : Succession (c :: h)) :
    Succession h := by
  cases h with
  | nil => trivial
  | cons a rest => exact hs.2

/-- Everything an owner that kept its tenures has held ends when the register's tenure does, if that is
its own, and otherwise before it starts. -/
theorem Succession.newest {b : Tenure O T} {h : List (Tenure O T)} (hs : Succession (b :: h)) :
    ∀ c ∈ b :: h, Keeps (b :: h) c.owner →
      (c.owner = b.owner → c.stop ≤ b.stop) ∧ (c.owner ≠ b.owner → c.stop ≤ b.start) := by
  induction h generalizing b with
  | nil =>
      intro c hc _
      rw [List.mem_singleton.mp hc]
      exact ⟨fun _ => le_rfl, fun hne => absurd rfl hne⟩
  | cons a rest ih =>
      intro c hc hk
      rcases List.mem_cons.mp hc with rfl | hc
      · exact ⟨fun _ => le_rfl, fun hne => absurd rfl hne⟩
      obtain ⟨hown, hother⟩ := ih hs.2 c hc hk.tail
      have hheld : c.owner = a.owner → a.held = true := fun ho =>
        hk a (List.mem_cons_of_mem b (List.mem_cons_self)) ho.symm
      cases hs.1 with
      | take hseen hfree hspan _ =>
          have hstop : c.stop ≤ b.start := by
            by_cases ho : c.owner = a.owner
            · exact (hown ho).trans (hfree (hheld ho))
            · exact (hother ho).trans hseen
          exact ⟨fun _ => hstop.trans hspan, fun _ => hstop⟩
      | extend howner hwas hseen hlater _ =>
          refine ⟨fun ho => (hown (ho.trans howner)).trans hlater, fun hne => ?_⟩
          exact (hother fun ho => hne (ho.trans howner.symm)).trans hseen
      | give howner hwas hstart hgiven =>
          refine ⟨fun ho => ?_, fun hne => (hother fun ho => hne (ho.trans howner.symm)).trans hstart⟩
          have hkept := hk b List.mem_cons_self ho.symm
          rw [hgiven] at hkept
          cases hkept

/-- **Spans held by different owners do not overlap**, as long as these have given up nothing. -/
theorem Succession.disjoint : ∀ {h : List (Tenure O T)}, Succession h → ∀ {c d : Tenure O T}, c ∈ h →
    d ∈ h → c.owner ≠ d.owner → Keeps h c.owner → Keeps h d.owner →
    c.stop ≤ d.start ∨ d.stop ≤ c.start := by
  intro h
  induction h with
  | nil => intro _ c d hc; cases hc
  | cons b rest ih =>
      intro hs c d hc hd hne hkc hkd
      rcases List.mem_cons.mp hc with rfl | hc'
      · exact Or.inr ((hs.newest d hd hkd).2 hne.symm)
      rcases List.mem_cons.mp hd with rfl | hd'
      · exact Or.inl ((hs.newest c hc hkc).2 hne)
      exact ih hs.tail hc' hd' hne hkc.tail hkd.tail

end Lib
