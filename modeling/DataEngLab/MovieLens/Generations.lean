/-
Which generation the two tables hold when an execution returns.

An execution has read the rows and the provenance of each table, at four moments, and has
found its own.  That is all it knows: the last comparison is of the two tables with each
other, and by then another execution may have replaced both.  When nobody replaces a table by
something else from the moment its rows were read to the last time its properties are, the
four moments are one, and the last properties are the execution's own.
-/
import DataEngLab.Lib.Play
import DataEngLab.MovieLens.Returned

namespace MovieLens

open Lib

abbrev PipelineLog := List (Nat × Event PipelineCall PipelineAnswer)

/-! ### The tables at a moment -/

/-- What the tables hold after the calls of a log. -/
def tablesAt (init : Tables) : PipelineLog → Tables
  | [] => init
  | (_, ⟨.replace table frame provenance, reply⟩) :: log =>
      if ReplaceReply.replaces reply then (tablesAt init log).replace table ⟨frame, provenance.properties⟩
      else tablesAt init log
  | _ :: log => tablesAt init log

theorem pipeline_logged (avg : List Double → Double) (init : Tables) :
    Logged (pipelineMachine avg) init (tablesAt init) where
  nil := rfl
  cons {q t l e r w} h := by
    cases e with
    | spark => exact h
    | createNamespace => exact h
    | replace table frame provenance => exact h
    | readFrame table => exact h.2
    | readProperties table => exact h.2
  still h := h.elim

/-- The table holds something with this property. -/
def Holding (K : Stored → Prop) (w : Tables) (table : Table) : Prop := ∃ stored, w table = some stored ∧ K stored

/-- The rows are those of a frame. -/
def HasRows (frame : Frame) (stored : Stored) : Prop := sameRows frame.rows stored.frame.rows = true

/-- The properties are those of a provenance. -/
def Carries (p : Provenance) (stored : Stored) : Prop :=
  generationOf stored.properties = generationOf p.properties

theorem Holding.and {K K' : Stored → Prop} {w : Tables} {table : Table} (h : Holding K w table)
    (h' : Holding K' w table) : Holding (fun stored => K stored ∧ K' stored) w table := by
  obtain ⟨stored, hs, hK⟩ := h
  obtain ⟨stored', hs', hK'⟩ := h'
  rw [hs] at hs'
  cases hs'
  exact ⟨stored, hs, hK, hK'⟩

section
variable {init : Tables} {table : Table} {K : Stored → Prop}

/-- What a table holds stays, if everything that replaces it has the property too. -/
theorem holding_kept {newer older : PipelineLog} (h : Holding K (tablesAt init older) table)
    (hk : ∀ later earlier u f p reply, newer = later ++ (u, ⟨.replace table f p, reply⟩) :: earlier →
      ReplaceReply.replaces reply = true → K ⟨f, p.properties⟩) :
    Holding K (tablesAt init (newer ++ older)) table := by
  induction newer with
  | nil => exact h
  | cons x newer ih =>
      have hrest : Holding K (tablesAt init (newer ++ older)) table :=
        ih fun later earlier u f p reply heq => hk (x :: later) earlier u f p reply (by rw [heq]; rfl)
      obtain ⟨u, e, r⟩ := x
      cases e with
      | replace table' f p =>
          rw [List.cons_append, tablesAt]
          split
          · rename_i hreplaces
            by_cases ht : table' = table
            · subst ht
              exact ⟨_, if_pos rfl, hk [] newer u f p r rfl hreplaces⟩
            · obtain ⟨stored, hs, hK⟩ := hrest
              exact ⟨stored, (if_neg fun heq => ht heq.symm).trans hs, hK⟩
          · exact hrest
      | spark => exact hrest
      | createNamespace => exact hrest
      | readFrame table' => exact hrest
      | readProperties table' => exact hrest

end

/-! ### What an execution knows, and what it should -/

section
variable (avg : List Double → Double) (init : Tables) (log : PipelineLog) (t : Nat) (q : Execution)

/-- The execution has replaced both tables. -/
def Replaced (past : PipelineLog) : Prop :=
  ∀ table, (t, (⟨.replace table (q.own avg table) q.provenance, ReplaceReply.done⟩ :
    Event PipelineCall PipelineAnswer)) ∈ past

/-- The properties of a table, if the call is a thread's reading of them. -/
def propertiesRead (t : Nat) (table : Table) : Nat × Event PipelineCall PipelineAnswer → Option Properties
  | (u, ⟨.readProperties table', properties⟩) => if u = t ∧ table' = table then properties else none
  | _ => none

/-- The last properties of a table that a thread has read. -/
def lastProperties (table : Table) : Option Properties := log.findSome? (propertiesRead t table)

/-- Both tables held the execution's own rows and provenance at one moment after its replaces, and the
properties it read last were its own. -/
structure BindsOneGeneration : Prop where
  moment : ∃ past, past <:+ log ∧ Replaced avg t q past ∧ ∀ table,
    Holding (fun stored => HasRows (q.own avg table) stored ∧ Carries q.provenance stored) (tablesAt init past) table
  lastReads : ∀ table, (lastProperties log t table).map generationOf = some (generationOf q.provenance.properties)

/-- After its replaces, the execution found its own rows and then its own provenance in the user table, and then
in the movie table; in the end both tables had one provenance. -/
structure ReadBack : Prop where
  moments : ∃ a b c d, (a <:+ b ∧ b <:+ c ∧ c <:+ d ∧ d <:+ log) ∧ Replaced avg t q a ∧
    Holding (HasRows (q.own avg .user)) (tablesAt init a) .user ∧
    Holding (Carries q.provenance) (tablesAt init b) .user ∧
    Holding (HasRows (q.own avg .movie)) (tablesAt init c) .movie ∧
    Holding (Carries q.provenance) (tablesAt init d) .movie
  lastReads : ∃ user movie, lastProperties log t .user = some user ∧ lastProperties log t .movie = some movie ∧
    generationOf user = generationOf movie

/-- Nobody replaces a table by something else from the moment the execution has read its rows to the last time it
reads its properties. -/
def Undisturbed : Prop :=
  ∀ later earlier u table f p reply, log = later ++ (u, ⟨.replace table f p, reply⟩) :: earlier →
    ReplaceReply.replaces reply = true → (∃ r, (t, ⟨.readFrame table, r⟩) ∈ earlier) →
    (∃ r, (t, ⟨.readProperties table, r⟩) ∈ later) → HasRows (q.own avg table) ⟨f, p.properties⟩ ∧ p = q.provenance

end

/-! ### The calls in the log -/

section
variable {avg : List Double → Double} {init : Tables} {log : PipelineLog} {t : Nat} {q : Execution} {r : Readback}

theorem mem_of_historyOf {x : Event PipelineCall PipelineAnswer} (h : x ∈ historyOf log t) : (t, x) ∈ log := by
  obtain ⟨⟨u, y⟩, hfilter, rfl⟩ := List.mem_map.mp h
  obtain ⟨hmem, hu⟩ := List.mem_filter.mp hfilter
  obtain rfl : u = t := by simpa using hu
  exact hmem

/-- The last properties are in the thread's own history. -/
theorem lastProperties_eq (table : Table) :
    lastProperties log t table = (historyOf log t).findSome? fun x => propertiesRead t table (t, x) := by
  induction log with
  | nil => rfl
  | cons x log ih =>
      obtain ⟨u, e, r⟩ := x
      by_cases hu : u = t
      · subst hu
        simp only [lastProperties, List.findSome?_cons, historyOf, List.filter_cons, beq_self_eq_true, if_true,
          List.map_cons] at ih ⊢
        cases propertiesRead u table (u, ⟨e, r⟩) with
        | none => exact ih
        | some m => rfl
      · have hnone : propertiesRead t table (u, ⟨e, r⟩) = none := by
          cases e <;> simp [propertiesRead, hu]
        have hb : (u == t) = false := by simpa using hu
        simp only [lastProperties, List.findSome?_cons, hnone, historyOf, List.filter_cons, hb] at ih ⊢
        exact ih

/-- Where the reads of an execution that has returned stand in the log. -/
theorem returned_log (hlog : historyOf log t = (returnedCalls avg q r).reverse) :
    ∃ l₁ l₂ l₃ l₄ l₅ l₆, (t, ⟨.readProperties .movie, some r.lastMovieProperties⟩) :: l₁ <:+ log ∧
      (t, ⟨.readProperties .user, some r.lastUserProperties⟩) :: l₂ <:+ l₁ ∧
      (t, ⟨.readProperties .movie, some r.movieProperties⟩) :: l₃ <:+ l₂ ∧
      (t, ⟨.readFrame .movie, some r.movieFrame⟩) :: l₄ <:+ l₃ ∧
      (t, ⟨.readProperties .user, some r.userProperties⟩) :: l₅ <:+ l₄ ∧
      (t, ⟨.readFrame .user, some r.userFrame⟩) :: l₆ <:+ l₅ ∧ Replaced avg t q l₆ := by
  obtain ⟨a₁, l₁, rfl, -, h₁⟩ := split_history (show historyOf log t = [⟨.spark, true⟩] ++ _ :: _ from hlog)
  obtain ⟨a₂, l₂, rfl, -, h₂⟩ := split_history (show historyOf l₁ t = [] ++ _ :: _ from h₁)
  obtain ⟨a₃, l₃, rfl, -, h₃⟩ := split_history (show historyOf l₂ t = [] ++ _ :: _ from h₂)
  obtain ⟨a₄, l₄, rfl, -, h₄⟩ := split_history (show historyOf l₃ t = [⟨.spark, true⟩] ++ _ :: _ from h₃)
  obtain ⟨a₅, l₅, rfl, -, h₅⟩ := split_history (show historyOf l₄ t = [] ++ _ :: _ from h₄)
  obtain ⟨a₆, l₆, rfl, -, h₆⟩ := split_history (show historyOf l₅ t = [⟨.spark, true⟩] ++ _ :: _ from h₅)
  refine ⟨_, _, _, _, _, l₆, List.suffix_append .., List.suffix_append .., List.suffix_append ..,
    List.suffix_append .., List.suffix_append .., List.suffix_append .., fun table => mem_of_historyOf ?_⟩
  rw [h₆]
  cases table
  · exact List.mem_cons_of_mem _ (List.mem_cons_self ..)
  · exact List.mem_cons_self ..

/-- What was read was what the table held. -/
theorem holding_of_readFrame {p : Pool Execution Tables PipelineCall PipelineAnswer (Except Exn RunResult)}
    {table : Table} {frame own : Frame} {past : PipelineLog}
    (h : Reachable (pipelineMachine avg) (fun w => w = init) p)
    (hlog : (t, ⟨.readFrame table, some frame⟩) :: past <:+ p.sys.log)
    (hsame : sameRows own.rows frame.rows = true) : Holding (HasRows own) (tablesAt init past) table := by
  obtain ⟨later, hlater⟩ := hlog
  obtain ⟨q, w, hread, -⟩ := h.answered (pipeline_logged avg init) hlater.symm
  obtain ⟨stored, hs, rfl⟩ := hread frame rfl
  exact ⟨stored, hs, hsame⟩

theorem holding_of_readProperties {p : Pool Execution Tables PipelineCall PipelineAnswer (Except Exn RunResult)}
    {table : Table} {m : Properties} {past : PipelineLog}
    (h : Reachable (pipelineMachine avg) (fun w => w = init) p)
    (hlog : (t, ⟨.readProperties table, some m⟩) :: past <:+ p.sys.log) :
    Holding (fun stored => generationOf stored.properties = generationOf m) (tablesAt init past) table := by
  obtain ⟨later, hlater⟩ := hlog
  obtain ⟨q, w, hread, -⟩ := h.answered (pipeline_logged avg init) hlater.symm
  obtain ⟨stored, hs, hm⟩ := hread m rfl
  exact ⟨stored, hs, hm.symm⟩

/-- Undisturbed, a table keeps the rows and the provenance of the execution. -/
theorem Undisturbed.kept {K : Stored → Prop} {table : Table} {older middle last : PipelineLog} {m : Option Properties}
    (h : Undisturbed avg log t q) (hlast : (t, ⟨.readProperties table, m⟩) :: last <:+ log) (hmiddle : middle <:+ last)
    (hread : ∃ r, (t, ⟨.readFrame table, r⟩) ∈ older) (holder : older <:+ middle)
    (hK : ∀ f, HasRows (q.own avg table) ⟨f, q.provenance.properties⟩ → K ⟨f, q.provenance.properties⟩)
    (hold : Holding K (tablesAt init older) table) : Holding K (tablesAt init middle) table := by
  obtain ⟨later, rfl⟩ := hlast
  obtain ⟨between, rfl⟩ := hmiddle
  obtain ⟨newer, rfl⟩ := holder
  refine holding_kept hold fun before after u f p reply hsplit hreplaces => ?_
  obtain ⟨r, hr⟩ := hread
  have hlog : later ++ (t, ⟨.readProperties table, m⟩) :: (between ++ (newer ++ older)) =
      (later ++ (t, ⟨.readProperties table, m⟩) :: (between ++ before)) ++
        (u, ⟨.replace table f p, reply⟩) :: (after ++ older) := by rw [hsplit]; simp
  obtain ⟨hrows, rfl⟩ := h _ _ u table f p reply hlog hreplaces ⟨r, List.mem_append_right _ hr⟩ ⟨m, by simp⟩
  exact hK f hrows

end

section
variable {avg : List Double → Double} {init : Tables} {t : Nat} {q : Execution} {result : RunResult}
  {p : Pool Execution Tables PipelineCall PipelineAnswer (Except Exn RunResult)}

theorem Holding.generation {w : Tables} {table : Table} {m : Properties} (h : Holding (Carries q.provenance) w table)
    (hm : Holding (fun stored => generationOf stored.properties = generationOf m) w table) :
    generationOf m = generationOf q.provenance.properties := by
  obtain ⟨stored, -, hp, hread⟩ := h.and hm
  exact hread.symm.trans hp

/-- **An execution that returns has read its own rows and provenance back from each table; and undisturbed, both
tables held them at once, and its last reads gave its own provenance.** -/
theorem returned_binds (h : Reachable (pipelineMachine avg) (fun w => w = init) p)
    (ht : p.threads t = some ⟨q, .pure (.ok result)⟩) :
    result.provenance = q.provenance ∧ ReadBack avg init p.sys.log t q ∧
      (Undisturbed avg p.sys.log t q → BindsOneGeneration avg init p.sys.log t q) := by
  obtain ⟨hprovenance, r, hcalls, hr⟩ := plays_runResolved_ok (h.plays ht)
  have hhistory : historyOf p.sys.log t = (returnedCalls avg q r).reverse := by
    rw [← hcalls, List.reverse_reverse]
    rfl
  have hlastUser : lastProperties p.sys.log t .user = some r.lastUserProperties := by
    rw [lastProperties_eq, hhistory]
    simp [returnedCalls, propertiesRead]
  have hlastMovie : lastProperties p.sys.log t .movie = some r.lastMovieProperties := by
    rw [lastProperties_eq, hhistory]
    simp [returnedCalls, propertiesRead]
  obtain ⟨l₁, l₂, l₃, l₄, l₅, l₆, h₁, h₂, h₃, h₄, h₅, h₆, hreplaced⟩ := returned_log hhistory
  have drop : ∀ {x : Nat × Event PipelineCall PipelineAnswer} {l l' : PipelineLog}, x :: l <:+ l' → l <:+ l' :=
    fun hx => (List.suffix_cons _ _).trans hx
  -- the last calls before the end, from the newest to the oldest
  have s₁ := drop h₁
  have s₂ := (drop h₂).trans s₁
  have s₃ := (drop h₃).trans s₂
  have s₄ := (drop h₄).trans s₃
  have s₅ := (drop h₅).trans s₄
  have huserRows := holding_of_readFrame h (h₆.trans s₅) hr.userRows
  have huserProperties : Holding (Carries q.provenance) (tablesAt init l₅) .user := by
    obtain ⟨stored, hs, hg⟩ := holding_of_readProperties h (h₅.trans s₄)
    exact ⟨stored, hs, hg.trans hr.userGeneration⟩
  have hmovieRows := holding_of_readFrame h (h₄.trans s₃) hr.movieRows
  have hmovieProperties : Holding (Carries q.provenance) (tablesAt init l₃) .movie := by
    obtain ⟨stored, hs, hg⟩ := holding_of_readProperties h (h₃.trans s₂)
    exact ⟨stored, hs, hg.trans hr.movieGeneration⟩
  refine ⟨hprovenance, ⟨⟨l₆, l₅, l₄, l₃, ⟨drop h₆, drop h₅, drop h₄, s₃⟩, hreplaced, huserRows, huserProperties,
    hmovieRows, hmovieProperties⟩, _, _, hlastUser, hlastMovie, hr.lastGeneration⟩, fun hcalm => ?_⟩
  have huserLast := h₂.trans s₁
  have hreadUser : ∃ f, (t, ⟨.readFrame .user, f⟩) ∈ l₅ := ⟨_, h₆.subset (List.mem_cons_self ..)⟩
  have hreadMovie : ∃ f, (t, ⟨.readFrame .movie, f⟩) ∈
      (t, (⟨.readFrame .movie, some r.movieFrame⟩ : Event PipelineCall PipelineAnswer)) :: l₄ := ⟨_, List.mem_cons_self ..⟩
  have huserBoth := (hcalm.kept huserLast (drop h₃) ⟨_, List.mem_cons_self ..⟩ (h₆.trans ((drop h₅).trans (drop h₄)))
    (fun f hf => hf) huserRows).and
      (hcalm.kept huserLast (drop h₃) hreadUser ((drop h₅).trans (drop h₄)) (fun _ _ => rfl) huserProperties)
  have hmovieBoth := (hcalm.kept h₁ ((drop h₃).trans (drop h₂)) hreadMovie h₄ (fun f hf => hf) hmovieRows).and
    hmovieProperties
  have huserGeneration : generationOf r.lastUserProperties = generationOf q.provenance.properties :=
    Holding.generation (hcalm.kept huserLast List.suffix_rfl hreadUser ((drop h₅).trans ((drop h₄).trans (drop h₃)))
      (fun _ _ => rfl) huserProperties) (holding_of_readProperties h huserLast)
  refine ⟨⟨l₃, s₃, fun table => ?_, fun table => ?_⟩, fun table => ?_⟩
  · exact ((drop h₆).trans ((drop h₅).trans (drop h₄))).subset (hreplaced table)
  · cases table
    · exact huserBoth
    · exact hmovieBoth
  · cases table
    · rw [hlastUser, Option.map_some, huserGeneration]
    · rw [hlastMovie, Option.map_some, ← hr.lastGeneration, huserGeneration]

end

/-! ### Two executions -/

/-- The tables and Spark answer whatever is asked of them. -/
def answering (w : Tables) : (e : PipelineCall) → Option (PipelineAnswer e × Tables)
  | .spark => some (true, w)
  | .createNamespace => some (true, w)
  | .replace table frame provenance => some (.done, w.replace table ⟨frame, provenance.properties⟩)
  | .readFrame table => some ((w table).map Stored.frame, w)
  | .readProperties table => some ((w table).map Stored.properties, w)

def pipelineCast (avg : List Double → Double) : Cast (pipelineMachine avg) Tables where
  world := id
  answer _ _ _ w e := answering w e
  allowed t q x w e r w' hx h := by
    obtain ⟨world, log⟩ := x
    obtain rfl : world = w := hx
    cases e with
    | spark => cases h; rfl
    | createNamespace => cases h; rfl
    | replace table frame provenance => cases h; rfl
    | readFrame table =>
        cases h
        refine ⟨fun f hf => ?_, rfl⟩
        obtain ⟨stored, hs, rfl⟩ := Option.map_eq_some_iff.mp hf
        exact ⟨stored, hs, rfl⟩
    | readProperties table =>
        cases h
        refine ⟨fun m hm => ?_, rfl⟩
        obtain ⟨stored, hs, rfl⟩ := Option.map_eq_some_iff.mp hm
        exact ⟨stored, hs, rfl⟩

/-- One rating. -/
def oneRating : Frame where
  schema := ratingsSchema
  rows := [[.long 1, .long 1, .double (.finite 4), .long 0]]
  conforms r hr := by
    obtain rfl := List.mem_singleton.mp hr
    simp [Conforms, ratingsSchema, Cell.fits]

/-- An execution for a publication of that rating. -/
def executionOf (publicationId : String) : Execution :=
  ⟨oneRating, ⟨lit "small", lit "plan", lit publicationId, lit "manifest"⟩⟩

def firstAverage (ratings : List Double) : Double := ratings.headD .nan

def readsUserProperties : PipelineCall → Bool
  | .readProperties .user => true
  | _ => false

def readsUserFrame : PipelineCall → Bool
  | .readFrame .user => true
  | _ => false

abbrev PipelineStage := Stage Execution Tables PipelineCall PipelineAnswer (Except Exn RunResult) Tables

/-- Thread 0 serves the first publication, and returns. -/
def returnsFirst (x : PipelineStage) : Bool :=
  (Cast.resultOf x 0).any fun y => y.1.provenance == (executionOf "first").provenance && y.2.isOk

theorem returnsFirst_eq {x : PipelineStage} (h : returnsFirst x = true) :
    ∃ q result, x.pool.threads 0 = some ⟨q, .pure (.ok result)⟩ ∧ q.provenance = (executionOf "first").provenance := by
  obtain ⟨⟨q, result⟩, hx, hy⟩ := (Option.any_eq_true _ _).mp h
  obtain ⟨hq, hok⟩ := Bool.and_eq_true_iff.mp hy
  cases result with
  | error e => cases hok
  | ok result => exact ⟨q, result, Cast.resultOf_eq_some hx, by simpa using hq⟩

def noTables : Tables := fun _ => none

/-- One execution alone. -/
def aloneRun : Option PipelineStage :=
  (pipelineCast firstAverage).play [.start 0 (executionOf "first"), .upTo 0 fun _ => false]
    ((pipelineCast firstAverage).opening noTables)

/-- No table is replaced after a frame has been read. -/
def replacedFirst : PipelineLog → Bool
  | [] => true
  | (_, ⟨.replace .., _⟩) :: log => log.all fun x => match x.2.1 with
      | .readFrame _ => false
      | _ => true
  | _ :: log => replacedFirst log

theorem undisturbed_of_replacedFirst {avg : List Double → Double} {t : Nat} {q : Execution} {log : PipelineLog}
    (h : replacedFirst log = true) : Undisturbed avg log t q := by
  intro later earlier u table f p reply hlog _ hread hlast
  clear hlast
  obtain ⟨r, hr⟩ := hread
  induction later generalizing log with
  | nil =>
      subst hlog
      have hall := List.all_eq_true.mp h _ hr
      cases hall
  | cons x later ih =>
      subst hlog
      obtain ⟨v, e, a⟩ := x
      cases e with
      | replace table' f' p' =>
          have hall := List.all_eq_true.mp h (t, ⟨.readFrame table, r⟩)
            (List.mem_append_right _ (List.mem_cons_of_mem _ hr))
          cases hall
      | spark => exact ih (show replacedFirst (later ++ _) = true from h) rfl
      | createNamespace => exact ih (show replacedFirst (later ++ _) = true from h) rfl
      | readFrame table' => exact ih (show replacedFirst (later ++ _) = true from h) rfl
      | readProperties table' => exact ih (show replacedFirst (later ++ _) = true from h) rfl

theorem aloneRun_binds : ∃ (p : Pool Execution Tables PipelineCall PipelineAnswer (Except Exn RunResult)) (q : Execution),
    Reachable (pipelineMachine firstAverage) (fun w => w = noTables) p ∧
      (∃ result, p.threads 0 = some ⟨q, .pure (.ok result)⟩) ∧
      BindsOneGeneration firstAverage noTables p.sys.log 0 q := by
  have hrun : (aloneRun.any fun x => returnsFirst x && replacedFirst x.pool.sys.log) = true := by decide
  obtain ⟨x, hx, hcheck⟩ := (Option.any_eq_true _ _).mp hrun
  obtain ⟨hreturns, hreplaced⟩ := Bool.and_eq_true_iff.mp hcheck
  obtain ⟨q, result, ht, -⟩ := returnsFirst_eq hreturns
  have hreach : Reachable (pipelineMachine firstAverage) (fun w => w = noTables) x.pool := Cast.play_reachable rfl hx
  exact ⟨x.pool, q, hreach, ⟨result, ht⟩, (returned_binds hreach ht).2.2 (undisturbed_of_replacedFirst hreplaced)⟩

/-- The first execution has read both tables back; the second replaces them; the first compares them. -/
def overtakenRun : Option PipelineStage :=
  (pipelineCast firstAverage).play [.start 0 (executionOf "first"), .upTo 0 readsUserProperties, .one 0,
    .upTo 0 readsUserProperties, .start 1 (executionOf "second"), .upTo 1 readsUserFrame, .upTo 0 fun _ => false]
    ((pipelineCast firstAverage).opening noTables)

/-- It returns, and the tables it has compared are the second's. -/
theorem overtakenRun_not_bound :
    ∃ (p : Pool Execution Tables PipelineCall PipelineAnswer (Except Exn RunResult)) (q : Execution),
      Reachable (pipelineMachine firstAverage) (fun w => w = noTables) p ∧
      (∃ result, p.threads 0 = some ⟨q, .pure (.ok result)⟩) ∧
      ¬ BindsOneGeneration firstAverage noTables p.sys.log 0 q := by
  have hrun : (overtakenRun.any fun x => returnsFirst x &&
      (lastProperties x.pool.sys.log 0 .user).map generationOf !=
        some (generationOf (executionOf "first").provenance.properties)) = true := by decide
  obtain ⟨x, hx, hcheck⟩ := (Option.any_eq_true _ _).mp hrun
  obtain ⟨hreturns, hother⟩ := Bool.and_eq_true_iff.mp hcheck
  obtain ⟨q, result, ht, hq⟩ := returnsFirst_eq hreturns
  refine ⟨x.pool, q, Cast.play_reachable rfl hx, ⟨result, ht⟩, fun hbound => ?_⟩
  have hlast := hbound.lastReads .user
  rw [hq] at hlast
  simp [hlast] at hother

end MovieLens
