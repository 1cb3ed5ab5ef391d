/-
Canonical JSON bytes: `json.dumps` without `ensure_ascii`, encoded as UTF-8.

Characters stand in a literal as they are, except the quote, the backslash and the control
characters.  A reader gives back every string so printed, the ones with surrogates
included; those fail one step later, when the text is encoded.

`loadsBytes_canonicalJson` says that the bytes read back as the sorted value, and
`canonicalJson_sortKeys` that the sorted value has the same bytes, which is what a reader
asks that compares a document with its own canonical form.
-/
import DataEngLab.Lib.JsonDumps
import DataEngLab.Lib.Utf8

namespace Lib

/-! ### Strings -/

/-- One character of a string literal without `ensure_ascii`. -/
def rawChar (c : Nat) : Str :=
  if c = 34 then [92, 34]
  else if c = 92 then [92, 92]
  else if c = 10 then [92, 110]
  else if c = 13 then [92, 114]
  else if c = 9 then [92, 116]
  else if c = 12 then [92, 102]
  else if c = 8 then [92, 98]
  else if c < 32 then escapeUnit c
  else [c]

theorem rawChar_head (c : Nat) : ∃ d t, rawChar c = d :: t ∧ d ≠ 34 := by
  unfold rawChar
  split_ifs
  all_goals exact ⟨_, _, rfl, by first | decide | assumption⟩

def rawEscaping : Escaping where
  char := rawChar
  head := rawChar_head

theorem scanChar_raw (c : Nat) (r : Str) : scanChar (rawChar c ++ r) = .ok (c, r) := by
  unfold rawChar
  by_cases h34 : c = 34
  · subst h34; rfl
  by_cases h92 : c = 92
  · subst h92; rfl
  by_cases h10 : c = 10
  · subst h10; rfl
  by_cases h13 : c = 13
  · subst h13; rfl
  by_cases h9 : c = 9
  · subst h9; rfl
  by_cases h12 : c = 12
  · subst h12; rfl
  by_cases h8 : c = 8
  · subst h8; rfl
  simp only [if_neg h34, if_neg h92, if_neg h10, if_neg h13, if_neg h9, if_neg h12, if_neg h8]
  by_cases hlt : c < 32
  · rw [if_pos hlt]
    refine scanChar_unit (by omega) r fun hhigh => ?_
    simp only [isHighSurrogate, Bool.and_eq_true, decide_eq_true_eq] at hhigh
    omega
  · rw [if_neg hlt, List.cons_append, List.nil_append, scanChar.eq_def]
    split
    · simp_all
    · simp_all
    · simp_all
    · rename_i heq
      simp only [List.cons.injEq] at heq
      obtain ⟨rfl, rfl⟩ := heq
      rw [if_neg hlt]

/-- Every string is read back from its literal. -/
theorem reads_raw : ∀ s : Str, Reads rawEscaping s := by
  intro s
  induction s with
  | nil =>
      intro fuel r hf
      cases fuel with
      | zero => simp at hf
      | succ n => rfl
  | cons c rest ih =>
      intro fuel r hf
      cases fuel with
      | zero => simp at hf
      | succ n =>
          obtain ⟨d, t, hd, hne⟩ := rawChar_head c
          have hscan := scanChar_raw c (rest.flatMap rawEscaping.char ++ 34 :: r)
          have hrest := ih n r (by simpa using hf)
          rw [List.flatMap_cons, List.append_assoc]
          show scanString (n + 1) (rawChar c ++ _) = _
          rw [hd] at hscan ⊢
          rw [List.cons_append] at hscan ⊢
          rw [scanString_of_ne hne, hscan]
          simp only
          rw [hrest]

/-! ### Documents -/

mutual
/-- No floats, and the keys of each object are distinct. -/
def Json.Document : Json → Prop
  | .float _ => False
  | .arr xs => DocumentElems xs
  | .obj kvs => (kvs.map Prod.fst).Nodup ∧ DocumentMembers kvs
  | _ => True

def DocumentElems : List Json → Prop
  | [] => True
  | x :: xs => x.Document ∧ DocumentElems xs

def DocumentMembers : List (Str × Json) → Prop
  | [] => True
  | (_, v) :: kvs => v.Document ∧ DocumentMembers kvs
end

@[simp] theorem documentElems_iff {xs : List Json} : DocumentElems xs ↔ ∀ x ∈ xs, x.Document := by
  induction xs with
  | nil => simp [DocumentElems]
  | cons x xs ih => simp [DocumentElems, ih]

@[simp] theorem documentMembers_iff {kvs : List (Str × Json)} :
    DocumentMembers kvs ↔ ∀ kv ∈ kvs, kv.2.Document := by
  induction kvs with
  | nil => simp [DocumentMembers]
  | cons kv kvs ih => simp [DocumentMembers, ih]

mutual
theorem Json.Document.reads (hooks : Hooks) : ∀ {v : Json}, v.Document → v.ReadsIn rawEscaping hooks
  | .null, _ => trivial
  | .bool _, _ => trivial
  | .int _, _ => trivial
  | .float _, h => h.elim
  | .str s, _ => reads_raw s
  | .arr _, h => DocumentElems.reads hooks h
  | .obj _, h => ⟨h.1, DocumentMembers.reads hooks h.2⟩

theorem DocumentElems.reads (hooks : Hooks) :
    ∀ {xs : List Json}, DocumentElems xs → ReadsElems rawEscaping hooks xs
  | [], _ => trivial
  | _ :: _, h => ⟨Json.Document.reads hooks h.1, DocumentElems.reads hooks h.2⟩

theorem DocumentMembers.reads (hooks : Hooks) : ∀ {kvs : List (Str × Json)}, DocumentMembers kvs →
    ReadsMembers rawEscaping hooks kvs
  | [], _ => trivial
  | (k, _) :: _, h => ⟨reads_raw k, Json.Document.reads hooks h.1, DocumentMembers.reads hooks h.2⟩
end

mutual
/-- A value that is plain is a document. -/
theorem Json.Plain.document : ∀ {v : Json}, v.Plain → v.Document
  | .null, _ => trivial
  | .bool _, _ => trivial
  | .int _, _ => trivial
  | .float _, h => h
  | .str _, _ => trivial
  | .arr _, h => PlainElems.document h
  | .obj _, h => ⟨h.1, PlainMembers.document h.2⟩

theorem PlainElems.document : ∀ {xs : List Json}, PlainElems xs → DocumentElems xs
  | [], _ => trivial
  | _ :: _, h => ⟨Json.Plain.document h.1, PlainElems.document h.2⟩

theorem PlainMembers.document : ∀ {kvs : List (Str × Json)}, PlainMembers kvs → DocumentMembers kvs
  | [], _ => trivial
  | (_, _) :: _, h => ⟨Json.Plain.document h.2.1, PlainMembers.document h.2.2⟩
end

theorem Json.Document.sortKeys {v : Json} (h : v.Document) : v.sortKeys.Document := by
  refine sortKeys_induction (P := Json.Document) (Q := Json.Document) ?_ ?_ ?_ ?_ ?_ v h
  · intro v hn hp; rwa [sortKeys_atom hn]
  · intro xs _ hall
    simp only [Json.Document, documentElems_iff, List.mem_map, forall_exists_index, and_imp,
      forall_apply_eq_imp_iff₂]
    exact fun x hx => (hall x hx).2
  · intro kvs hp hall
    simp only [Json.Document, documentMembers_iff] at hp ⊢
    refine ⟨(sortedMembers_keys kvs).nodup_iff.mpr hp.1, fun kv hkv => ?_⟩
    obtain ⟨v, hm, hv⟩ := mem_sortedMembers.mp hkv
    rw [← hv]
    exact (hall _ hm).2
  · intro xs hp; simpa only [Json.Document, documentElems_iff] using hp
  · intro kvs hp kv hkv
    simp only [Json.Document, documentMembers_iff] at hp
    exact hp.2 kv hkv

/-! ### Bytes -/

/-- `canonical_json`; `none` is the `ValueError` of an integer that is too long or of text that UTF-8
cannot encode. -/
def canonicalJson (v : Json) : Option Bytes :=
  if v.intsFit then utf8Encode (v.sortKeys.text rawEscaping) else none

theorem canonicalJson_eq_some {v : Json} {b : Bytes} : canonicalJson v = some b ↔
    v.intsFit = true ∧ utf8Encode (v.sortKeys.text rawEscaping) = some b := by
  unfold canonicalJson
  split <;> simp_all

/-- A text that is the whole of what is read. -/
theorem loads_text (h : Hooks) {E : Escaping} {v : Json} (hp : v.ReadsIn E h) (hf : v.intsFit = true)
    (hn : v.nesting ≤ nestingLimit) : loads h (v.text E) = .ok v := by
  have hscan := scanValue_text h nestingLimit v [] hp hf hn trivial
  have hskip := skipWs_text hp []
  obtain ⟨c, t, hc, hs⟩ := text_head hp
  rw [List.append_nil] at hscan hskip
  unfold loads
  rw [hc] at hscan hskip ⊢
  split
  · rename_i heq
    simp only [List.cons.injEq] at heq
    exact absurd heq.1 hs.ne.2.2.2
  · rw [hskip, hscan]
    rfl

/-- **Canonical bytes are read as the document they were made of, sorted.** -/
theorem loadsBytes_canonicalJson (h : Hooks) {v : Json} {b : Bytes} (hp : v.Document)
    (hn : v.nesting ≤ nestingLimit) (hb : canonicalJson v = some b) :
    loadsBytes h b = .ok v.sortKeys := by
  obtain ⟨hf, henc⟩ := canonicalJson_eq_some.mp hb
  rw [loadsBytes, utf8Decode_utf8Encode true henc]
  exact loads_text h (hp.sortKeys.reads h) (intsFit_sortKeys hf) (nesting_sortKeys_le hn)

theorem canonicalJson_sortKeys {v : Json} {b : Bytes} (hb : canonicalJson v = some b) :
    canonicalJson v.sortKeys = some b := by
  obtain ⟨hf, henc⟩ := canonicalJson_eq_some.mp hb
  exact canonicalJson_eq_some.mpr ⟨intsFit_sortKeys hf, by rwa [sortKeys_idem]⟩

/-! ### Texts that differ in plain characters -/

/-- Texts that differ in ASCII characters only. -/
def Str.Alike (s t : Str) : Prop := List.Forall₂ (fun c d => c = d ∨ c < 128 ∧ d < 128) s t

namespace Str.Alike

theorem refl (s : Str) : Alike s s := List.forall₂_same.mpr fun _ _ => .inl rfl

theorem append {s t s' t' : Str} (h : Alike s t) (h' : Alike s' t') : Alike (s ++ s') (t ++ t') :=
  List.rel_append h h'

theorem cons {s t : Str} (c : Nat) (h : Alike s t) : Alike (c :: s) (c :: t) :=
  List.Forall₂.cons (.inl rfl) h

theorem of_ascii : ∀ {s t : Str}, s.length = t.length → (∀ c ∈ s, c < 128) → (∀ c ∈ t, c < 128) →
    Alike s t := by
  intro s
  induction s with
  | nil =>
      intro t hlen _ _
      rw [List.length_nil, eq_comm, List.length_eq_zero_iff] at hlen
      subst hlen
      exact .nil
  | cons c s ih =>
      intro t hlen hs ht
      cases t with
      | nil => cases hlen
      | cons d t =>
          rw [List.forall_mem_cons] at hs ht
          exact List.Forall₂.cons (.inr ⟨hs.1, ht.1⟩) (ih (Nat.succ.inj hlen) hs.2 ht.2)

end Str.Alike

/-- Such texts are encoded alike, in as many bytes. -/
theorem utf8Encode_alike {s t : Str} (h : Str.Alike s t) : ∀ {b : Bytes}, utf8Encode s = some b →
    ∃ b', utf8Encode t = some b' ∧ b'.length = b.length := by
  induction h with
  | nil => exact fun hb => ⟨_, hb, rfl⟩
  | @cons c d s t hcd _ ih =>
      intro b hb
      obtain ⟨units, rest, hc, hs, rfl⟩ := utf8Encode_cons.mp hb
      obtain ⟨rest', ht, hlen⟩ := ih hs
      have hd : ∃ units', utf8Char d = some units' ∧ units'.length = units.length := by
        rcases hcd with rfl | ⟨hc128, hd128⟩
        · exact ⟨units, hc, rfl⟩
        · rw [utf8Char, if_pos hc128, Option.some.injEq] at hc
          refine ⟨[UInt8.ofNat d], by rw [utf8Char, if_pos hd128], ?_⟩
          rw [← hc]
          rfl
      obtain ⟨units', hunits, hlen'⟩ := hd
      refine ⟨units' ++ rest', utf8Encode_cons.mpr ⟨_, _, hunits, ht, rfl⟩, ?_⟩
      simp only [List.length_append, hlen, hlen']

/-- A string without characters that are escaped stands in its literal as it is. -/
theorem quote_unescaped {s : Str} (h : ∀ c ∈ s, 32 ≤ c ∧ c ≠ 34 ∧ c ≠ 92) : quote rawEscaping s = 34 :: s ++ [34] := by
  have hflat : s.flatMap rawChar = s := by
    induction s with
    | nil => rfl
    | cons c s ih =>
        obtain ⟨hlow, h34, h92⟩ := h c List.mem_cons_self
        rw [List.flatMap_cons, ih fun d hd => h d (List.mem_cons_of_mem c hd)]
        unfold rawChar
        rw [if_neg h34, if_neg h92, if_neg (by omega), if_neg (by omega), if_neg (by omega), if_neg (by omega),
          if_neg (by omega), if_neg (by omega)]
        rfl
  exact congrArg (fun t => 34 :: t ++ [34]) hflat

theorem textMembers_alike {kvs kvs' : List (Str × Json)}
    (h : List.Forall₂ (fun a b => a.1 = b.1 ∧ Str.Alike (a.2.text rawEscaping) (b.2.text rawEscaping)) kvs kvs') :
    Str.Alike (textMembers rawEscaping kvs) (textMembers rawEscaping kvs') := by
  induction h with
  | nil => exact .refl _
  | @cons a b _ _ hab _ ih =>
      obtain ⟨k, v⟩ := a
      obtain ⟨k', w⟩ := b
      obtain ⟨rfl, hvw⟩ := hab
      simp only [textMembers]
      exact ((Str.Alike.refl (44 :: quote rawEscaping k)).append (hvw.cons 58)).append ih

/-- Objects whose members' texts are alike have texts that are alike. -/
theorem text_obj_alike {kvs kvs' : List (Str × Json)}
    (h : List.Forall₂ (fun a b => a.1 = b.1 ∧ Str.Alike (a.2.text rawEscaping) (b.2.text rawEscaping)) kvs kvs') :
    Str.Alike ((Json.obj kvs).text rawEscaping) ((Json.obj kvs').text rawEscaping) := by
  cases h with
  | nil => exact .refl _
  | @cons a b _ _ hab hrest =>
      obtain ⟨k, v⟩ := a
      obtain ⟨k', w⟩ := b
      obtain ⟨rfl, hvw⟩ := hab
      simp only [Json.text]
      exact ((Str.Alike.refl (123 :: quote rawEscaping k)).append (hvw.cons 58)).append (textMembers_alike hrest)

end Lib
