/-
The change stream of `cdc_streaming-online_retail`.

Each message is read into a row of four columns, all null when its text is malformed, and
each micro-batch is merged into `online_retail_cdc` on the invoice and the stock code.  A
batch that ran before a crash may run again.  The notebooks for Jupyter and Zeppelin run the
same statement.

The batches are not deduplicated, so what the table holds depends on how the messages fall
into batches.  It is the last row of each key, whatever is repeated, exactly when no message
lacks a part of its key and no batch has two messages for one key.
-/
import DataEngLab.Lib.Merge

namespace CdcStream

open Lib

/-- A row of the table, and what `from_json` makes of a message. -/
structure ChangeRow where
  invoice : Option Str
  stockCode : Option Str
  quantity : Option Int
  price : Option Double
deriving DecidableEq

/-- `(invoice, stock_code)`, if both parts are there. -/
def ChangeRow.key (r : ChangeRow) : Option (Str × Str) :=
  match r.invoice, r.stockCode with
  | some invoice, some stockCode => some (invoice, stockCode)
  | _, _ => none

/-- The statement of `upsert_batch`. -/
def mergeStatement : Merge ChangeRow where
  on t s := (Sql.eq t.invoice s.invoice).and (Sql.eq t.stockCode s.stockCode)
  update t s := { t with quantity := s.quantity, price := s.price }

theorem ChangeRow.key_eq_some {r : ChangeRow} {k : Str × Str} :
    r.key = some k ↔ r.invoice = some k.1 ∧ r.stockCode = some k.2 := by
  obtain ⟨invoice, stockCode, quantity, price⟩ := r
  cases invoice with
  | none => simp [key]
  | some i =>
      cases stockCode with
      | none => simp [key]
      | some c => simp [key, Prod.ext_iff]

theorem mergeStatement_keyed : mergeStatement.Keyed ChangeRow.key where
  matched := by
    intro t s
    simp only [mergeStatement, Truth.and_eq_true, ChangeRow.key_eq_some]
    constructor
    · rintro ⟨hinvoice, hstock⟩
      obtain ⟨tInvoice, tStock, tQuantity, tPrice⟩ := t
      cases tInvoice with
      | none => simp [Sql.eq] at hinvoice
      | some i =>
          cases tStock with
          | none => simp [Sql.eq] at hstock
          | some c => exact ⟨(i, c), ⟨rfl, rfl⟩, Sql.eq_some_left.mp hinvoice, Sql.eq_some_left.mp hstock⟩
    · rintro ⟨k, ⟨htInvoice, htStock⟩, hsInvoice, hsStock⟩
      rw [htInvoice, htStock, hsInvoice, hsStock]
      simp
  update := fun _ _ => rfl

/-- An update of a row with the source's key gives the source's row. -/
theorem mergeStatement_sets {t s : ChangeRow} {k : Str × Str} (ht : t.key = some k) (hs : s.key = some k) :
    mergeStatement.update t s = s := by
  rw [ChangeRow.key_eq_some] at ht hs
  obtain ⟨sInvoice, sStock, sQuantity, sPrice⟩ := s
  simp only at hs
  simp only [mergeStatement, ht.1, ht.2, hs.1, hs.2]

/-! ### The stream -/

/-- A micro-batch, and how many times it is run again. -/
structure MicroBatch (Message : Type) where
  messages : List Message
  again : Nat

section
variable {Message : Type} (fromJson : Message → Option ChangeRow)

/-- `from_json(value, schema)` and `c.*`: a malformed or missing value is a row of nulls. -/
def parsed (message : Message) : ChangeRow := (fromJson message).getD ⟨none, none, none, none⟩

/-- `upsert_batch` -/
def upsertBatch (table : List ChangeRow) (messages : List Message) : Option (List ChangeRow) :=
  mergeStatement.run table (messages.map (parsed fromJson))

/-- The same batch, `n` times. -/
def runAgain (messages : List Message) : Nat → List ChangeRow → Option (List ChangeRow)
  | 0, table => some table
  | n + 1, table => (upsertBatch fromJson table messages).bind (runAgain messages n)

/-- The table after the batches in order; `none` when the stream has failed. -/
def runStream (table : List ChangeRow) : List (MicroBatch Message) → Option (List ChangeRow)
  | [] => some table
  | b :: rest => (runAgain fromJson b.messages (b.again + 1) table).bind fun table => runStream table rest

/-- The messages that the batches were cut from. -/
def allMessages (batches : List (MicroBatch Message)) : List Message := batches.flatMap (·.messages)

/-- The stream does not fail, and its table holds the last row of each key. -/
def LastWriteWins (batches : List (MicroBatch Message)) : Prop :=
  ∃ table, runStream fromJson [] batches = some table ∧
    LastWrites ChangeRow.key ((allMessages batches).map (parsed fromJson)) table

/-- Every message of the batch has a key, and no two have the same. -/
def Deduplicated (messages : List Message) : Prop :=
  DistinctKeys ChangeRow.key (messages.map (parsed fromJson))

variable {fromJson} {messages : List Message} {table table' : List ChangeRow} {rows : List ChangeRow}

/-! ### Batches without repetitions -/

/-- Running a batch again changes what is written last for no key. -/
theorem lastRow_again {xs : List ChangeRow} (k : Str × Str) :
    lastRow ChangeRow.key k (rows ++ xs ++ xs) = lastRow ChangeRow.key k (rows ++ xs) := by
  rw [lastRow_append, lastRow_append]
  cases lastRow ChangeRow.key k xs <;> rfl

theorem runAgain_ok (hd : Deduplicated fromJson messages) : ∀ (n : Nat) {rows table : List ChangeRow},
    LastWrites ChangeRow.key (rows ++ messages.map (parsed fromJson)) table →
      ∃ table', runAgain fromJson messages n table = some table' ∧
        LastWrites ChangeRow.key (rows ++ messages.map (parsed fromJson)) table' := by
  intro n
  induction n with
  | zero => exact fun ht => ⟨_, rfl, ht⟩
  | succ n ih =>
      intro rows table ht
      obtain ⟨table', hrun, ht'⟩ := ht.upsert mergeStatement_keyed mergeStatement_sets hd
      obtain ⟨table'', hruns, ht''⟩ := ih (ht'.congr fun k => (lastRow_again k).symm)
      refine ⟨table'', ?_, ht''⟩
      rw [runAgain, upsertBatch, hrun]
      exact hruns

theorem runStream_ok : ∀ {batches : List (MicroBatch Message)} (rows table : List ChangeRow),
    (∀ b ∈ batches, Deduplicated fromJson b.messages) → LastWrites ChangeRow.key rows table →
      ∃ table', runStream fromJson table batches = some table' ∧
        LastWrites ChangeRow.key (rows ++ (allMessages batches).map (parsed fromJson)) table' := by
  intro batches
  induction batches with
  | nil => exact fun _ _ _ ht => ⟨_, rfl, by simpa [allMessages] using ht⟩
  | cons b batches ih =>
      intro rows table hd ht
      obtain ⟨table', hrun, ht'⟩ :=
        ht.upsert mergeStatement_keyed mergeStatement_sets (hd b (by simp))
      obtain ⟨table'', hagain, ht''⟩ := runAgain_ok (hd b (by simp)) b.again ht'
      obtain ⟨last, hlast, hwrites⟩ := ih _ _ (fun c hc => hd c (List.mem_cons_of_mem b hc)) ht''
      refine ⟨last, ?_, by simpa [allMessages, List.append_assoc] using hwrites⟩
      rw [runStream, runAgain, upsertBatch, hrun, Option.bind_some, hagain, Option.bind_some, hlast]

/-! ### What a batch with repetitions leaves behind -/

/-- A key stands in at least as many rows as before, whatever is run. -/
theorem runAgain_le (k : Option (Str × Str)) : ∀ {n : Nat} {table table' : List ChangeRow},
    runAgain fromJson messages n table = some table' →
      (withKey ChangeRow.key k table).length ≤ (withKey ChangeRow.key k table').length := by
  intro n
  induction n with
  | zero =>
      intro table table' h
      rw [← Option.some.inj h]
  | succ n ih =>
      intro table table' h
      obtain ⟨middle, hrun, hrest⟩ := Option.bind_eq_some_iff.mp h
      exact (mergeStatement_keyed.le_withKey hrun k).trans (ih hrest)

theorem runStream_le (k : Option (Str × Str)) : ∀ {batches : List (MicroBatch Message)}
    {table table' : List ChangeRow}, runStream fromJson table batches = some table' →
      (withKey ChangeRow.key k table).length ≤ (withKey ChangeRow.key k table').length := by
  intro batches
  induction batches with
  | nil =>
      intro table table' h
      rw [← Option.some.inj h]
  | cons b batches ih =>
      intro table table' h
      obtain ⟨middle, hrun, hrest⟩ := Option.bind_eq_some_iff.mp h
      exact (runAgain_le k hrun).trans (ih hrest)

/-- A table that is not keyed, or has a key twice. -/
def Spoiled (table : List ChangeRow) : Prop :=
  1 ≤ (withKey ChangeRow.key none table).length ∨
    ∃ k, 2 ≤ (withKey ChangeRow.key (some k) table).length

/-- After a batch that is not deduplicated, the table is spoiled. -/
theorem upsertBatch_spoils (hd : ¬ Deduplicated fromJson messages)
    (h : upsertBatch fromJson table messages = some table') : Spoiled table' := by
  by_cases hnull : withKey ChangeRow.key none (messages.map (parsed fromJson)) = []
  · by_cases htwice : ∀ k, (withKey ChangeRow.key (some k) (messages.map (parsed fromJson))).length ≤ 1
    · exact absurd ⟨hnull, htwice⟩ hd
    · obtain ⟨k, hk⟩ := not_forall.mp htwice
      exact .inr ⟨k, mergeStatement_keyed.repeats_key (Nat.lt_of_not_le hk) h⟩
  · exact .inl ((List.length_pos_iff.mpr hnull).trans_le (mergeStatement_keyed.inserts_null h))

theorem Spoiled.stays (h : Spoiled table)
    (hle : ∀ k, (withKey ChangeRow.key k table).length ≤ (withKey ChangeRow.key k table').length) :
    Spoiled table' := by
  rcases h with h | ⟨k, h⟩
  · exact .inl (h.trans (hle none))
  · exact .inr ⟨k, h.trans (hle (some k))⟩

theorem Spoiled.not_lastWrites (h : Spoiled table) : ¬ LastWrites ChangeRow.key rows table := by
  intro hw
  rcases h with h | ⟨k, h⟩
  · rw [hw.keyed] at h
    simp at h
  · exact absurd (hw.length_le k) (by omega)

theorem runStream_spoiled : ∀ {batches : List (MicroBatch Message)} {table table' : List ChangeRow},
    (∃ b ∈ batches, ¬ Deduplicated fromJson b.messages) → runStream fromJson table batches = some table' →
      Spoiled table' := by
  intro batches
  induction batches with
  | nil =>
      rintro table table' ⟨b, hb, -⟩
      cases hb
  | cons b batches ih =>
      rintro table table' ⟨c, hc, hd⟩ h
      obtain ⟨middle, hrun, hrest⟩ := Option.bind_eq_some_iff.mp h
      rcases List.mem_cons.mp hc with rfl | hc
      · obtain ⟨first, hfirst, hagain⟩ := Option.bind_eq_some_iff.mp hrun
        exact ((upsertBatch_spoils hd hfirst).stays fun k => runAgain_le k hagain).stays
          fun k => runStream_le k hrest
      · exact ih ⟨c, hc, hd⟩ hrest

end

/-- **When the stream is last-write-wins**: for any messages, cut and repeated in any way, exactly when
every batch is deduplicated. -/
theorem lastWriteWins_iff {Message : Type} (fromJson : Message → Option ChangeRow)
    (batches : List (MicroBatch Message)) :
    LastWriteWins fromJson batches ↔ ∀ b ∈ batches, Deduplicated fromJson b.messages := by
  constructor
  · rintro ⟨table, hrun, hwrites⟩ b hb
    by_contra hd
    exact (runStream_spoiled ⟨b, hb, hd⟩ hrun).not_lastWrites hwrites
  · intro hd
    obtain ⟨table, hrun, hwrites⟩ := runStream_ok [] [] hd ⟨rfl, fun k => rfl⟩
    exact ⟨table, hrun, by simpa using hwrites⟩

/-- A change of the quantity of one key. -/
def sampleChange (quantity : Int) : ChangeRow :=
  ⟨some (lit "536365"), some (lit "85123A"), some quantity, some (.finite (51 / 20))⟩

/-- Two messages for one key in one batch are both inserted. -/
theorem batch_with_two_changes :
    ¬ LastWriteWins some [⟨[sampleChange 6, sampleChange 8], 0⟩] := by
  rintro ⟨table, hrun, hwrites⟩
  have htable : table = [sampleChange 6, sampleChange 8] := (Option.some.inj hrun).symm
  have hle := hwrites.length_le (lit "536365", lit "85123A")
  have htwo : (withKey ChangeRow.key (some (lit "536365", lit "85123A"))
      [sampleChange 6, sampleChange 8]).length = 2 := by rfl
  rw [htable, htwo] at hle
  omega

end CdcStream
