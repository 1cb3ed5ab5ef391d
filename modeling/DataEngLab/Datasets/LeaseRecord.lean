/-
What a stored lease says.

A lease is written as canonical JSON with its instants cut to whole seconds, and read back
field by field.  `tenureOf` is what matters of a stored body to the other owners: whose it
is, whether it is held, and from which second to which.  It depends on the bytes alone, so
a reader and the writer agree on it.
-/
import DataEngLab.Datasets.Leases
import DataEngLab.Lib.Tenure

namespace Datasets

open Lib

def Lease.tenure (l : Lease) : Tenure Str Nat where
  owner := l.ownerNonce
  held := decide (l.state = .active)
  start := l.createdAt.instant.second
  stop := l.expiresAt.instant.second

def documentTenure (kvs : List (Str × Json)) : Option (Tenure Str Nat) :=
  match textOf (Json.get "owner_nonce" kvs), leaseStateOf (Json.get "state" kvs),
    parseInstant (Json.get "created_at" kvs), parseInstant (Json.get "expires_at" kvs) with
  | some owner, some state, some createdAt, some expiresAt =>
      some ⟨owner, decide (state = .active), createdAt.instant.second, expiresAt.instant.second⟩
  | _, _, _, _ => none

/-- The tenure a stored body stands for. -/
def tenureOf (body : Bytes) : Option (Tenure Str Nat) :=
  match loadsBytes .plain body with
  | .ok (.obj kvs) => documentTenure kvs
  | _ => none

/-! ### Reading -/

/-- What was checked of a lease that was read. -/
structure ReadLease (snapshot : ControlSnapshot) (dataset bucket key : Str) (l : Lease) : Prop where
  tenure : tenureOf snapshot.body = some l.tenure
  dataset : l.dataset = dataset
  etag : l.etag = snapshot.etag
  location : l.location = ⟨bucket, key⟩
  created : l.createdAt ≤ snapshot.serverDate.moment
  document : ∃ kvs, loadsBytes .plain snapshot.body = .ok (.obj kvs) ∧
    parseInstant (Json.get "created_at" kvs) = some l.createdAt ∧
    parseInstant (Json.get "expires_at" kvs) = some l.expiresAt

theorem validate_created {l : Lease} {observedAt : Instant} {u : Unit}
    (h : l.validate (some observedAt) = .ok u) : l.createdAt ≤ observedAt.moment := by
  simp only [Lease.validate, Lease.validateObserved, bind_eq_ok, require_eq_ok, decide_eq_true_eq] at h
  obtain ⟨-, -, -, -, -, -, -, -, -, ⟨-, h, -⟩, -⟩ := h
  exact h

theorem validate_key {l : Lease} {observedAt : Option Instant} {u : Unit}
    (h : l.validate observedAt = .ok u) : l.key = leaseKey l.dataset := by
  simp only [Lease.validate, bind_eq_ok, require_eq_ok, beq_iff_eq] at h
  obtain ⟨-, -, -, -, -, -, -, -, -, -, h⟩ := h
  exact h

theorem leaseFromSnapshot_eq_ok {snapshot : ControlSnapshot} {dataset bucket key : Str} {l : Lease}
    (h : leaseFromSnapshot snapshot dataset bucket key = .ok l) :
    ReadLease snapshot dataset bucket key l := by
  unfold leaseFromSnapshot at h
  split at h
  · cases h
  · rename_i kvs hload
    simp only [leaseOfDocument, bind_eq_ok, orElse_eq_ok, mapError_eq_ok, pure_eq_ok] at h
    obtain ⟨-, -, -, -, state, hstate, createdAt, hcreated, expiresAt, hexpires, -, -, publicationId, -,
      ownerNonce, howner, u, hvalid, rfl⟩ := h
    refine ⟨?_, rfl, rfl, rfl, validate_created hvalid, kvs, hload, hcreated, hexpires⟩
    simp only [tenureOf, hload, documentTenure, howner, hstate, hcreated, hexpires]
    rfl
  · cases h

/-! ### Writing -/

section
variable (l : Lease)

theorem Lease.fields_nodup : (l.fields.map Prod.fst).Nodup := by
  simp only [Lease.fields, List.map_cons, List.map_nil]
  decide

theorem Lease.fields_document : (Json.obj (members l.fields)).Document := by
  simp only [Json.Document, documentMembers_iff]
  refine ⟨members_keys_nodup l.fields_nodup, fun kv hkv => ?_⟩
  obtain ⟨f, hf, rfl⟩ := List.mem_map.mp hkv
  simp only [Lease.fields, List.mem_cons, List.not_mem_nil, or_false] at hf
  rcases hf with rfl | rfl | rfl | rfl | rfl | rfl <;> trivial

/-- The fields are listed in the order of their names. -/
theorem Lease.sortKeys_fields : (Json.obj (members l.fields)).sortKeys = .obj (members l.fields) := by
  rw [sortKeys_obj, sortedMembers]
  have hvalues : (members l.fields).map (fun kv => (kv.1, kv.2.sortKeys)) = members l.fields := rfl
  have hnames : ((members l.fields).map Prod.fst).Pairwise (· ≤ ·) := by
    simp only [Lease.fields, members, List.map_cons, List.map_nil]
    decide
  rw [hvalues, (List.pairwise_map.mp hnames).insertionSort_eq]

end

theorem body_eq_ok {l : Lease} {body : Bytes} :
    l.body = .ok body ↔ l.validate none = .ok () ∧ canonicalJson (.obj (members l.fields)) = some body := by
  simp only [Lease.body, bind_eq_ok, orElse_eq_ok]
  constructor
  · rintro ⟨⟨⟩, hvalid, hjson⟩
    exact ⟨hvalid, hjson⟩
  · rintro ⟨hvalid, hjson⟩
    exact ⟨(), hvalid, hjson⟩

/-- A lease's bytes are read as its fields. -/
theorem body_loads {l : Lease} {body : Bytes} (h : l.body = .ok body) :
    loadsBytes .plain body = .ok (.obj (sortedMembers (members l.fields))) := by
  have hnest : (Json.obj (members l.fields)).nesting ≤ nestingLimit := by
    simp [Lease.fields, members, Json.nesting, nestingMembers, nestingLimit]
  have hload := loadsBytes_canonicalJson .plain l.fields_document hnest (body_eq_ok.mp h).2
  rwa [sortKeys_obj] at hload

/-- The fields of a lease as they are read back. -/
theorem body_fields {l : Lease} {body : Bytes} (h : l.body = .ok body) :
    ∃ kvs, loadsBytes .plain body = .ok (.obj kvs) ∧
      ∀ k v, l.fields.lookup k = some (.str v) → Json.get k kvs = some (.str v) := by
  refine ⟨_, body_loads h, fun k v hv => ?_⟩
  rw [get_sorted_members l.fields_nodup, hv]
  rfl

theorem parseInstant_formatInstant (m : Moment) :
    parseInstant (some (.str (formatInstant m))) = some m.instant.moment := by
  simp only [parseInstant, formatInstant, fromIsoFormat_formatUtc]

@[simp] theorem leaseStateOf_text (state : LeaseState) : leaseStateOf (some (.str state.text)) = some state := by
  cases state with
  | active => simp [leaseStateOf, LeaseState.text]
  | released => simp [leaseStateOf, LeaseState.text]

/-- **A lease's bytes stand for its tenure.** -/
theorem tenureOf_body {l : Lease} {body : Bytes} (h : l.body = .ok body) :
    tenureOf body = some l.tenure := by
  obtain ⟨kvs, hload, hget⟩ := body_fields h
  have howner := hget "owner_nonce" l.ownerNonce rfl
  have hstate := hget "state" l.state.text rfl
  have hcreated := hget "created_at" (formatInstant l.createdAt) rfl
  have hexpires := hget "expires_at" (formatInstant l.expiresAt) rfl
  simp only [tenureOf, hload, documentTenure, howner, hstate, hcreated, hexpires, textOf,
    leaseStateOf_text, parseInstant_formatInstant, Instant.moment_instant]
  rfl

/-- What is read of a lease's own bytes has whole seconds. -/
theorem read_whole {l proposed : Lease} {snapshot : ControlSnapshot} {dataset bucket key : Str}
    (hbody : proposed.body = .ok snapshot.body) (h : ReadLease snapshot dataset bucket key l) :
    l.createdAt = proposed.createdAt.instant.moment ∧ l.expiresAt = proposed.expiresAt.instant.moment := by
  obtain ⟨kvs, hload, hget⟩ := body_fields hbody
  obtain ⟨kvs', hload', hcreated, hexpires⟩ := h.document
  rw [hload] at hload'
  cases hload'
  rw [hget "created_at" (formatInstant proposed.createdAt) rfl, parseInstant_formatInstant] at hcreated
  rw [hget "expires_at" (formatInstant proposed.expiresAt) rfl, parseInstant_formatInstant] at hexpires
  exact ⟨(Option.some.inj hcreated).symm, (Option.some.inj hexpires).symm⟩

/-- **An active lease is read back from its own bytes**, once it has begun. -/
theorem leaseFromSnapshot_body {l : Lease} {body : Bytes} (h : l.body = .ok body) (hactive : l.state = .active)
    (hcreated : l.createdAt.instant.moment = l.createdAt) (hexpires : l.expiresAt.instant.moment = l.expiresAt)
    {d : Instant} (hd : l.createdAt ≤ d.moment) (etag : Str) :
    leaseFromSnapshot ⟨body, etag, d⟩ l.dataset l.bucket l.key = .ok { l with etag := etag } := by
  have hload := body_loads h
  obtain ⟨hvalid, hjson⟩ := body_eq_ok.mp h
  obtain ⟨kvs, hload', hget⟩ := body_fields h
  rw [hload] at hload'
  obtain rfl : sortedMembers (members l.fields) = kvs := Json.obj.inj (Except.ok.inj hload')
  have hexact : Json.hasExactly leaseFieldNames (sortedMembers (members l.fields)) = true :=
    hasExactly_sorted_members l.fields_nodup
  have hcanonical : requireCanonical (sortedMembers (members l.fields)) body = .ok () := by
    have hsorted := canonicalJson_sortKeys hjson
    rw [sortKeys_obj] at hsorted
    simp only [requireCanonical, hsorted, beq_self_eq_true, require_true]
  have hobserved : ({ l with etag := etag } : Lease).validate (some d) = .ok () := by
    simp only [Lease.validate, bind_eq_ok, require_eq_ok] at hvalid ⊢
    obtain ⟨_, hid, _, hspan, _, hend, _, hlong, _, -, hkey⟩ := hvalid
    refine ⟨_, hid, (), hspan, (), hend, (), hlong, (), ?_, hkey⟩
    simp only [Lease.validateObserved, bind_eq_ok, require_eq_ok, decide_eq_true_eq]
    exact ⟨(), hd, fun hreleased => by rw [hactive] at hreleased; cases hreleased⟩
  simp only [leaseFromSnapshot, hload, leaseOfDocument, bind_eq_ok, orElse_eq_ok, mapError_eq_ok, pure_eq_ok,
    require_eq_ok, hget "dataset" l.dataset rfl, hget "state" l.state.text rfl,
    hget "created_at" (formatInstant l.createdAt) rfl, hget "expires_at" (formatInstant l.expiresAt) rfl,
    hget "publication_id" l.publicationId rfl, hget "owner_nonce" l.ownerNonce rfl, parseInstant_formatInstant,
    leaseStateOf_text, hcreated, hexpires]
  exact ⟨(), hexact, (), by simp only [textOf, beq_self_eq_true], l.state, rfl, l.createdAt, rfl, l.expiresAt,
    rfl, (), hcanonical, l.publicationId, rfl, l.ownerNonce, rfl, (), hobserved, rfl⟩

/-! ### Another lease of the same owner -/

/-- Only the instants differ. -/
structure SameTerms (l l' : Lease) : Prop where
  dataset : l'.dataset = l.dataset
  publicationId : l'.publicationId = l.publicationId
  ownerNonce : l'.ownerNonce = l.ownerNonce
  state : l'.state = l.state

theorem formatInstant_alike (m m' : Moment) :
    Str.Alike ((Json.str (formatInstant m)).text rawEscaping) ((Json.str (formatInstant m')).text rawEscaping) := by
  have hplain : ∀ m : Moment, ∀ c ∈ formatInstant m, 32 ≤ c ∧ c ≠ 34 ∧ c ≠ 92 := fun m c hc =>
    ⟨(formatUtc_ascii _ c hc).1, formatUtc_unquoted _ c hc⟩
  have hascii : ∀ m : Moment, ∀ c ∈ formatInstant m, c < 128 := fun m c hc => by
    have := (formatUtc_ascii _ c hc).2
    omega
  simp only [Json.text, quote_unescaped (hplain m), quote_unescaped (hplain m')]
  refine ((Str.Alike.of_ascii ?_ (hascii m) (hascii m')).cons 34).append (.refl _)
  simp only [formatInstant, formatUtc_length]

/-- It can be written as well, in as many bytes. -/
theorem body_sameTerms {l l' : Lease} {body : Bytes} (h : SameTerms l l') (hbody : l.body = .ok body)
    (hvalid : l'.validate none = .ok ()) : ∃ body', l'.body = .ok body' ∧ body'.length = body.length := by
  obtain ⟨-, hjson⟩ := body_eq_ok.mp hbody
  obtain ⟨hfit, hbytes⟩ := canonicalJson_eq_some.mp hjson
  have halike : List.Forall₂ (fun a b : Str × Json => a.1 = b.1 ∧
      Str.Alike (a.2.text rawEscaping) (b.2.text rawEscaping)) (members l.fields) (members l'.fields) := by
    simp only [Lease.fields, members, List.map_cons, List.map_nil, h.dataset, h.publicationId, h.ownerNonce, h.state]
    exact .cons ⟨rfl, formatInstant_alike _ _⟩ (.cons ⟨rfl, .refl _⟩ (.cons ⟨rfl, formatInstant_alike _ _⟩
      (.cons ⟨rfl, .refl _⟩ (.cons ⟨rfl, .refl _⟩ (.cons ⟨rfl, .refl _⟩ .nil)))))
  rw [Lease.sortKeys_fields] at hbytes
  obtain ⟨body', hbytes', hlen⟩ := utf8Encode_alike (text_obj_alike halike) hbytes
  refine ⟨body', body_eq_ok.mpr ⟨hvalid, canonicalJson_eq_some.mpr ⟨?_, by rwa [Lease.sortKeys_fields]⟩⟩, hlen⟩
  simp only [Lease.fields, members, List.map_cons, List.map_nil, Json.intsFit, membersFit, Bool.and_self]

end Datasets
