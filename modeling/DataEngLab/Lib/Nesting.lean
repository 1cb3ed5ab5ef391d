/-
Well-nested markup events.

A reader of markup tells its caller of start tags, end tags, tags that close themselves and
text.  A `Forest` is a sequence of such events in which every start tag that opens an
element has its end tag, and one of a void element has none; the proofs are part of it, so
there is no other forest.  `nests` is the usual check with a stack of open tags, and
`nests_iff` says that it accepts the events of the forests and nothing else.

`Forest.prune` cuts subtrees out by their roots.  `run_prune` is the rule for a machine that
ignores them: it ends in the same state without them, provided each of them leaves its state
alone and everything else keeps it where that is so.
-/
import DataEngLab.Lib.Text

namespace Lib

/-- What a reader of markup tells its caller. -/
inductive MarkupEvent (τ α : Type) where
  | start (tag : τ) (attrs : α)
  | startEnd (tag : τ) (attrs : α)
  | stop (tag : τ)
  | data (text : Str)

/-- Elements and text in order.  Two tags are of one name when `name` makes them equal, and an
element is void when `isVoid` says so of its name. -/
inductive Forest {τ : Type} (α : Type) (name : τ → τ) (isVoid : τ → Bool) where
  | nil
  | element (tag : τ) (attrs : α) (inner : Forest α name isVoid) (closing : τ)
      (opens : isVoid (name tag) = false) (closes : name closing = name tag) (rest : Forest α name isVoid)
  | void (tag : τ) (attrs : α) (empty : isVoid (name tag) = true) (rest : Forest α name isVoid)
  | startEnd (tag : τ) (attrs : α) (rest : Forest α name isVoid)
  | data (text : Str) (rest : Forest α name isVoid)

variable {τ α σ : Type} {name : τ → τ} {isVoid : τ → Bool}

namespace Forest

/-- The events of a forest, in the order of its text. -/
def events : Forest α name isVoid → List (MarkupEvent τ α)
  | nil => []
  | element tag attrs inner closing _ _ rest => .start tag attrs :: (inner.events ++ .stop closing :: rest.events)
  | void tag attrs _ rest => .start tag attrs :: rest.events
  | startEnd tag attrs rest => .startEnd tag attrs :: rest.events
  | data text rest => .data text :: rest.events

/-- The forest without the subtrees whose root is `gone`. -/
def prune (gone : τ → α → Bool) : Forest α name isVoid → Forest α name isVoid
  | nil => nil
  | element tag attrs inner closing opens closes rest =>
      if gone tag attrs then rest.prune gone
      else element tag attrs (inner.prune gone) closing opens closes (rest.prune gone)
  | void tag attrs h rest => if gone tag attrs then rest.prune gone else void tag attrs h (rest.prune gone)
  | startEnd tag attrs rest => if gone tag attrs then rest.prune gone else startEnd tag attrs (rest.prune gone)
  | data text rest => data text (rest.prune gone)

end Forest

/-! ### The check with a stack -/

section
variable [DecidableEq τ] (name isVoid)

/-- Each end tag is of the name opened last, and nothing is open at the end. -/
def nests : List τ → List (MarkupEvent τ α) → Bool
  | stack, [] => stack.isEmpty
  | stack, .start tag _ :: es => nests (if isVoid (name tag) then stack else name tag :: stack) es
  | stack, .startEnd _ _ :: es => nests stack es
  | [], .stop _ :: _ => false
  | top :: stack, .stop tag :: es => name tag == top && nests stack es
  | stack, .data _ :: es => nests stack es

end

/-- The rest of a document inside some open elements: a forest up to each of their end tags. -/
def Closes (name : τ → τ) (isVoid : τ → Bool) : List τ → List (MarkupEvent τ α) → Prop
  | [], es => ∃ f : Forest α name isVoid, es = f.events
  | top :: stack, es => ∃ (f : Forest α name isVoid) (tag : τ) (rest : List (MarkupEvent τ α)),
      es = f.events ++ .stop tag :: rest ∧ name tag = top ∧ Closes name isVoid stack rest

/-- A forest may begin with one more piece. -/
theorem Closes.cons {e : MarkupEvent τ α} {stack : List τ} {es : List (MarkupEvent τ α)}
    (grow : Forest α name isVoid → Forest α name isVoid) (hgrow : ∀ f, (grow f).events = e :: f.events)
    (h : Closes name isVoid stack es) : Closes name isVoid stack (e :: es) := by
  cases stack with
  | nil =>
      obtain ⟨f, rfl⟩ := h
      exact ⟨grow f, (hgrow f).symm⟩
  | cons top stack =>
      obtain ⟨f, tag, rest, rfl, htag, hrest⟩ := h
      exact ⟨grow f, tag, rest, by rw [hgrow, List.cons_append], htag, hrest⟩

theorem Closes.element {tag : τ} {attrs : α} {stack : List τ} {es : List (MarkupEvent τ α)}
    (hopens : isVoid (name tag) = false) (h : Closes name isVoid (name tag :: stack) es) :
    Closes name isVoid stack (.start tag attrs :: es) := by
  obtain ⟨inner, closing, rest, rfl, hcloses, hrest⟩ := h
  cases stack with
  | nil =>
      obtain ⟨f, rfl⟩ := hrest
      exact ⟨.element tag attrs inner closing hopens hcloses f, rfl⟩
  | cons top stack =>
      obtain ⟨f, last, rest, rfl, hlast, hrest⟩ := hrest
      refine ⟨.element tag attrs inner closing hopens hcloses f, last, rest, ?_, hlast, hrest⟩
      rw [Forest.events, List.cons_append, List.append_assoc, List.cons_append]

theorem closes_of_nests [DecidableEq τ] : ∀ {es : List (MarkupEvent τ α)} {stack : List τ},
    nests name isVoid stack es = true → Closes name isVoid stack es
  | [], stack, h => by
      rw [nests, List.isEmpty_iff] at h
      subst h
      exact ⟨.nil, rfl⟩
  | .start tag attrs :: es, stack, h => by
      rw [nests] at h
      cases hv : isVoid (name tag) with
      | true =>
          rw [hv, if_pos rfl] at h
          exact (closes_of_nests h).cons (.void tag attrs hv) fun _ => rfl
      | false =>
          rw [hv, if_neg Bool.false_ne_true] at h
          exact .element hv (closes_of_nests h)
  | .startEnd tag attrs :: es, stack, h => by
      rw [nests] at h
      exact (closes_of_nests h).cons (.startEnd tag attrs) fun _ => rfl
  | .stop tag :: es, [], h => by
      rw [nests] at h
      cases h
  | .stop tag :: es, top :: stack, h => by
      rw [nests, Bool.and_eq_true, beq_iff_eq] at h
      exact ⟨.nil, tag, es, rfl, h.1, closes_of_nests h.2⟩
  | .data text :: es, stack, h => by
      rw [nests] at h
      exact (closes_of_nests h).cons (.data text) fun _ => rfl

theorem nests_append [DecidableEq τ] : ∀ (f : Forest α name isVoid) (stack : List τ) (es : List (MarkupEvent τ α)),
    nests name isVoid stack (f.events ++ es) = nests name isVoid stack es
  | .nil, _, _ => rfl
  | .element tag attrs inner closing opens closes rest, stack, es => by
      rw [Forest.events, List.cons_append, nests, opens, if_neg Bool.false_ne_true, List.append_assoc,
        nests_append inner, List.cons_append, nests, closes, beq_self_eq_true, Bool.true_and, nests_append rest]
  | .void tag attrs h rest, stack, es => by
      rw [Forest.events, List.cons_append, nests, h, if_pos rfl, nests_append rest]
  | .startEnd tag attrs rest, stack, es => by
      rw [Forest.events, List.cons_append, nests, nests_append rest]
  | .data text rest, stack, es => by
      rw [Forest.events, List.cons_append, nests, nests_append rest]

/-- **The check accepts the events of the forests**, and nothing else. -/
theorem nests_iff [DecidableEq τ] {es : List (MarkupEvent τ α)} :
    nests name isVoid [] es = true ↔ ∃ f : Forest α name isVoid, es = f.events := by
  refine ⟨closes_of_nests, ?_⟩
  rintro ⟨f, rfl⟩
  have h := nests_append f [] []
  rwa [List.append_nil] at h

/-! ### A machine that ignores subtrees -/

/-- A machine over events, the states it may not end in, and the states in which it ignores a subtree whose root is
`gone`. -/
structure Ignores (isVoid : τ → Bool) (name : τ → τ) (step : σ → MarkupEvent τ α → σ) (bad shown : σ → Prop)
    (gone : τ → α → Bool) : Prop where
  stays : ∀ {s e}, bad s → bad (step s e)
  subtree : ∀ {s tag attrs closing} (inner : Forest α name isVoid), shown s → gone tag attrs = true →
    isVoid (name tag) = false → name closing = name tag →
    bad (step ((inner.events).foldl step (step s (.start tag attrs))) (.stop closing)) ∨
      step ((inner.events).foldl step (step s (.start tag attrs))) (.stop closing) = s
  void : ∀ {s tag attrs}, shown s → gone tag attrs = true → isVoid (name tag) = true →
    bad (step s (.start tag attrs)) ∨ step s (.start tag attrs) = s
  startEnd : ∀ {s tag attrs}, shown s → gone tag attrs = true →
    bad (step s (.startEnd tag attrs)) ∨ step s (.startEnd tag attrs) = s
  start : ∀ {s tag attrs}, shown s → gone tag attrs = false →
    bad (step s (.start tag attrs)) ∨ shown (step s (.start tag attrs))
  startEnd_shown : ∀ {s tag attrs}, shown s → gone tag attrs = false →
    bad (step s (.startEnd tag attrs)) ∨ shown (step s (.startEnd tag attrs))
  stop : ∀ {s tag}, shown s → shown (step s (.stop tag))
  data : ∀ {s text}, shown s → shown (step s (.data text))

variable {step : σ → MarkupEvent τ α → σ} {bad shown : σ → Prop} {gone : τ → α → Bool}

theorem Ignores.run_stays (h : Ignores isVoid name step bad shown gone) {es : List (MarkupEvent τ α)} :
    ∀ {s : σ}, bad s → bad (es.foldl step s) := by
  induction es with
  | nil => exact id
  | cons e es ih => exact fun hs => ih (h.stays hs)

/-- **The machine ends in the same state without the subtrees it ignores.** -/
theorem Ignores.run_prune (h : Ignores isVoid name step bad shown gone) : ∀ (f : Forest α name isVoid) {s : σ},
    shown s → ¬ bad (f.events.foldl step s) →
    (f.prune gone).events.foldl step s = f.events.foldl step s ∧ shown (f.events.foldl step s)
  | .nil, _, hs, _ => ⟨rfl, hs⟩
  | .element tag attrs inner closing opens closes rest, s, hs, hbad => by
      rw [Forest.events, List.foldl_cons, List.foldl_append, List.foldl_cons] at hbad ⊢
      have hclosed := mt h.run_stays hbad
      rw [Forest.prune]
      cases hg : gone tag attrs with
      | true =>
          rw [(h.subtree inner hs hg opens closes).resolve_left hclosed] at hbad ⊢
          rw [if_pos rfl]
          exact h.run_prune rest hs hbad
      | false =>
          have hinner := mt h.stays hclosed
          have hstart := (h.start hs hg).resolve_left (mt h.run_stays hinner)
          obtain ⟨heq, hshown⟩ := h.run_prune inner hstart hinner
          rw [if_neg Bool.false_ne_true, Forest.events, List.foldl_cons, List.foldl_append, List.foldl_cons, heq]
          exact h.run_prune rest (h.stop hshown) hbad
  | .void tag attrs hv rest, s, hs, hbad => by
      rw [Forest.events, List.foldl_cons] at hbad ⊢
      have hstep := mt h.run_stays hbad
      rw [Forest.prune]
      cases hg : gone tag attrs with
      | true =>
          rw [(h.void hs hg hv).resolve_left hstep] at hbad ⊢
          rw [if_pos rfl]
          exact h.run_prune rest hs hbad
      | false =>
          rw [if_neg Bool.false_ne_true, Forest.events, List.foldl_cons]
          exact h.run_prune rest ((h.start hs hg).resolve_left hstep) hbad
  | .startEnd tag attrs rest, s, hs, hbad => by
      rw [Forest.events, List.foldl_cons] at hbad ⊢
      have hstep := mt h.run_stays hbad
      rw [Forest.prune]
      cases hg : gone tag attrs with
      | true =>
          rw [(h.startEnd hs hg).resolve_left hstep] at hbad ⊢
          rw [if_pos rfl]
          exact h.run_prune rest hs hbad
      | false =>
          rw [if_neg Bool.false_ne_true, Forest.events, List.foldl_cons]
          exact h.run_prune rest ((h.startEnd_shown hs hg).resolve_left hstep) hbad
  | .data text rest, s, hs, hbad => by
      rw [Forest.events, List.foldl_cons] at hbad
      rw [Forest.prune, Forest.events, Forest.events, List.foldl_cons, List.foldl_cons]
      exact h.run_prune rest (h.data hs) hbad

end Lib
