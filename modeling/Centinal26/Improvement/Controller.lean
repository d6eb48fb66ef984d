/-
The life cycle of the improvement controller: completed work is recorded with its evidence, and a
stage is promoted to the next one when all the evidence for that is there.
-/
import Centinal26.Lib.Machine
import Centinal26.Py.Value

namespace Centinal26.Improvement

open Py

-- == the life cycle

inductive LifecycleStage
  | proposed
  | implemented
  | tested
  | independentlyVerified
  | deviceValidated
  | persistentValidated
  | productionReady
deriving DecidableEq

open LifecycleStage

def LifecycleStage.value : LifecycleStage → PyStr
  | proposed => py "PROPOSED"
  | implemented => py "IMPLEMENTED"
  | tested => py "TESTED"
  | independentlyVerified => py "INDEPENDENTLY_VERIFIED"
  | deviceValidated => py "DEVICE_VALIDATED"
  | persistentValidated => py "PERSISTENT_VALIDATED"
  | productionReady => py "PRODUCTION_READY"

/-- `_STAGE_ORDER`. -/
def stageOrder : List LifecycleStage :=
  [proposed, implemented, tested, independentlyVerified, deviceValidated, persistentValidated,
    productionReady]

/-- `_REQUIRED_EVIDENCE.get(stage, frozenset())`. -/
def requiredEvidence : LifecycleStage → List PyStr
  | proposed => []
  | implemented => [py "implementation_artifact"]
  | tested => [py "implementation_artifact", py "tests_pass"]
  | independentlyVerified =>
    [py "implementation_artifact", py "tests_pass", py "independent_verification"]
  | deviceValidated => [py "implementation_artifact", py "tests_pass",
      py "independent_verification", py "device_origin"]
  | persistentValidated => [py "implementation_artifact", py "tests_pass",
      py "independent_verification", py "device_origin", py "changed_boot_id",
      py "persistence_verification"]
  | productionReady => [py "implementation_artifact", py "tests_pass",
      py "independent_verification", py "device_origin", py "changed_boot_id",
      py "persistence_verification", py "production_acceptance"]

def nextStage (stage : LifecycleStage) : Option LifecycleStage :=
  stageOrder[stageOrder.idxOf stage + 1]?

def missingEvidence (stage : LifecycleStage) (evidence : List PyStr) : List PyStr :=
  (requiredEvidence stage).filter fun x => decide (x ∉ evidence)

def promote (current : LifecycleStage) (evidence : List PyStr) : LifecycleStage :=
  match nextStage current with
  | none => current
  | some target => if missingEvidence target evidence = [] then target else current

/-- `CanonicalImprovementState`; a set is the list of its members. -/
structure State where
  completed : List PyStr
  evidence : List PyStr
  lifecycleStage : LifecycleStage
  history : List PyStr

def State.initial : State := ⟨[], [], proposed, []⟩

def completedEntry (candidateId : PyStr) : PyStr := py "completed:" ++ candidateId

def promotedEntry (stage : LifecycleStage) : PyStr := py "promoted:" ++ stage.value

def recordCompleted (state : State) (candidateId : PyStr) (evidence : List PyStr) :
    Except PyErr State :=
  if isBlank candidateId then .error (.valueError "candidate_id must not be empty")
  else .ok {
    completed := state.completed.insert candidateId
    evidence := state.evidence ∪ evidence.filter fun x => decide (x ≠ [])
    lifecycleStage := state.lifecycleStage
    history := state.history ++ [completedEntry candidateId] }

def attemptPromotion (state : State) : State :=
  let promoted := promote state.lifecycleStage state.evidence
  if promoted ≠ state.lifecycleStage then { state with
    lifecycleStage := promoted
    history := state.history ++ [promotedEntry promoted] }
  else state

inductive Call
  | recordCompleted (candidateId : PyStr) (evidence : List PyStr)
  | attemptPromotion

/-- A call: whether it raises, and the state after it. -/
def step : Call → State → Except PyErr Unit × State
  | .recordCompleted candidateId evidence, state =>
    match recordCompleted state candidateId evidence with
    | .ok state' => (.ok (), state')
    | .error e => (.error e, state)
  | .attemptPromotion, state => (.ok (), attemptPromotion state)

abbrev Step := Machine.Entry Call (Except PyErr Unit) State

-- == promotions

def index (stage : LifecycleStage) : Nat := stageOrder.idxOf stage

variable {s t : LifecycleStage} {past : List Step} {e : Step}

theorem index_nextStage (h : nextStage s = some t) : index t = index s + 1 := by
  cases s <;> cases h <;> rfl

theorem index_le_of_last (h : nextStage s = none) (t : LifecycleStage) : index t ≤ index s := by
  cases s with
  | productionReady => cases t <;> decide
  | _ => cases h

theorem missingEvidence_eq_nil {stage : LifecycleStage} {evidence : List PyStr} :
    missingEvidence stage evidence = [] ↔ requiredEvidence stage ⊆ evidence := by
  rw [missingEvidence, List.filter_eq_nil_iff]
  simp [List.subset_def]

/-- Later stages require what earlier ones do. -/
theorem requiredEvidence_mono (h : index s ≤ index t) :
    requiredEvidence s ⊆ requiredEvidence t := by
  let count : LifecycleStage → Nat := fun stage => (requiredEvidence stage).length
  have htake : ∀ stage, requiredEvidence stage
      = (requiredEvidence productionReady).take (count stage) := by
    intro stage
    cases stage <;> rfl
  have hcount : count s ≤ count t := by
    revert h
    cases s <;> cases t <;> decide
  rw [htake s, htake t]
  exact List.take_subset_take_left _ hcount

theorem promote_cases (current : LifecycleStage) (evidence : List PyStr) :
    promote current evidence = current
        ∧ (∀ target, nextStage current = some target → ¬ requiredEvidence target ⊆ evidence)
      ∨ nextStage current = some (promote current evidence)
        ∧ requiredEvidence (promote current evidence) ⊆ evidence := by
  unfold promote
  cases hnext : nextStage current with
  | none => exact .inl ⟨rfl, fun _ h => nomatch h⟩
  | some target =>
    dsimp only
    split
    · next hnone => exact .inr ⟨rfl, missingEvidence_eq_nil.mp hnone⟩
    · next hsome =>
      refine .inl ⟨rfl, fun t ht => ?_⟩
      cases ht
      exact fun hall => hsome (missingEvidence_eq_nil.mpr hall)

/-- A promotion that is attempted: nothing happens, or there is one to the next stage. -/
theorem attemptPromotion_cases (state : State) : attemptPromotion state = state
        ∧ (∀ target, nextStage state.lifecycleStage = some target →
          ¬ requiredEvidence target ⊆ state.evidence)
      ∨ ∃ stage, nextStage state.lifecycleStage = some stage
        ∧ requiredEvidence stage ⊆ state.evidence
        ∧ attemptPromotion state = { state with
            lifecycleStage := stage
            history := state.history ++ [promotedEntry stage] } := by
  unfold attemptPromotion
  rcases promote_cases state.lifecycleStage state.evidence with ⟨hsame, hnone⟩ | ⟨hnext, hall⟩
  · exact .inl ⟨if_neg fun hne => hne hsame, hnone⟩
  · refine .inr ⟨_, hnext, hall, if_pos fun hsame => ?_⟩
    have hindex := index_nextStage hnext
    rw [hsame] at hindex
    omega

/-- Attempts that are repeated come to the last stage within reach all of whose evidence is there,
and a stage is reached no sooner than it can be one stage at a time. -/
theorem attempts_reach (state : State) (k : Nat) (stage : LifecycleStage) :
    index stage ≤ index (Machine.exec step (List.replicate k .attemptPromotion)
        state).lifecycleStage
      ↔ index stage ≤ index state.lifecycleStage ∨ index stage ≤ index state.lifecycleStage + k
          ∧ requiredEvidence stage ⊆ state.evidence := by
  induction k generalizing state with
  | zero =>
    rw [List.replicate_zero, Machine.exec_nil]
    omega
  | succ k ih =>
    rw [List.replicate_succ, Machine.exec_cons]
    refine (ih (attemptPromotion state)).trans ?_
    rcases attemptPromotion_cases state with ⟨heq, hnone⟩ | ⟨next, hnext, hall, heq⟩
    · rw [heq]
      refine or_congr_right ⟨fun h => ⟨by omega, h.2⟩, fun h => ⟨?_, h.2⟩⟩
      cases hlast : nextStage state.lifecycleStage with
      | none => exact (index_le_of_last hlast stage).trans (Nat.le_add_right _ _)
      | some target =>
        -- the evidence for the next stage is not there, and so none for the later ones
        by_contra hlt
        have hindex := index_nextStage hlast
        have hmono : requiredEvidence target ⊆ requiredEvidence stage :=
          requiredEvidence_mono (by omega)
        exact hnone target hlast (List.Subset.trans hmono h.2)
    · rw [heq]
      have hindex := index_nextStage hnext
      dsimp only
      constructor
      · rintro (hle | ⟨hle, hevidence⟩)
        · by_cases hbefore : index stage ≤ index state.lifecycleStage
          · exact .inl hbefore
          · exact .inr ⟨by omega, List.Subset.trans (requiredEvidence_mono hle) hall⟩
        · exact .inr ⟨by omega, hevidence⟩
      · rintro (hle | ⟨hle, hevidence⟩)
        · exact .inl (by omega)
        · exact .inr ⟨by omega, hevidence⟩

-- == runs

/-- The step is an accepted completion with this evidence. -/
def Gives (x : PyStr) (e : Step) : Prop :=
  ∃ candidateId evidence, e.input = .recordCompleted candidateId evidence ∧ e.output = .ok ()
    ∧ x ∈ evidence ∧ x ≠ []

/-- Every promotion is to the next stage, and all the evidence it takes had been given by
completions that were accepted before. -/
def Earned (t : List Step) : Prop :=
  ∀ pre e post, t = pre ++ e :: post → e.after.lifecycleStage ≠ e.before.lifecycleStage →
    nextStage e.before.lifecycleStage = some e.after.lifecycleStage
      ∧ ∀ x ∈ requiredEvidence e.after.lifecycleStage, ∃ f ∈ pre, Gives x f

/-- What a run has left behind: the evidence its completions gave, and an entry of the history
for each stage it has been promoted to, in order. -/
structure Kept (past : List Step) (state : State) : Prop where
  evidence : ∀ x, x ∈ state.evidence ↔ ∃ e ∈ past, Gives x e
  required : requiredEvidence state.lifecycleStage ⊆ state.evidence
  promotions : state.history.filter (py "promoted:").isPrefixOf
    = (stageOrder.take (index state.lifecycleStage + 1)).tail.map promotedEntry

theorem take_nextStage (h : nextStage s = some t) :
    (stageOrder.take (index t + 1)).tail = (stageOrder.take (index s + 1)).tail ++ [t] := by
  cases s <;> cases h <;> rfl

theorem filter_promoted (stage : LifecycleStage) :
    [promotedEntry stage].filter (py "promoted:").isPrefixOf = [promotedEntry stage] := by
  rw [List.filter_singleton, promotedEntry, List.isPrefixOf_iff_prefix.mpr ⟨_, rfl⟩]
  rfl

theorem Kept.same {state : State} (h : Kept past state)
    (hnone : ∀ x, ¬ Gives x e) : Kept (past ++ [e]) state := by
  refine ⟨fun x => ?_, h.required, h.promotions⟩
  rw [h.evidence x]
  simp [or_and_right, exists_or, hnone]

theorem kept_step (hvalid : e.Valid step) (h : Kept past e.before) :
    Kept (past ++ [e]) e.after := by
  obtain ⟨input, before, output, after⟩ := e
  have hstep : step input before = (output, after) := hvalid
  cases input with
  | recordCompleted candidateId evidence =>
    rw [step, recordCompleted] at hstep
    by_cases hblank : isBlank candidateId = true
    · rw [if_pos hblank] at hstep
      cases hstep
      exact h.same fun x ⟨_, _, _, hok, _⟩ => nomatch hok
    · rw [if_neg hblank] at hstep
      cases hstep
      refine ⟨fun x => ?_, fun x hx => List.mem_union_iff.mpr (.inl (h.required hx)), ?_⟩
      · rw [List.mem_union_iff, h.evidence x]
        simp [or_and_right, exists_or, Gives]
      · rw [List.filter_append, h.promotions]
        exact List.append_nil _
  | attemptPromotion =>
    cases hstep
    have hsame : Kept (past ++ [⟨.attemptPromotion, before, .ok (), attemptPromotion before⟩])
        before := h.same fun x ⟨_, _, hinput, _⟩ => nomatch hinput
    show Kept _ (attemptPromotion before)
    rcases attemptPromotion_cases before with ⟨heq, -⟩ | ⟨stage, hnext, hall, heq⟩
    · rw [heq] at hsame ⊢
      exact hsame
    · rw [heq] at hsame ⊢
      refine ⟨hsame.evidence, hall, ?_⟩
      rw [List.filter_append, hsame.promotions, filter_promoted, take_nextStage hnext,
        List.map_append]
      rfl

theorem kept_run (calls : List Call) :
    Kept (Machine.trace step calls .initial) (Machine.exec step calls .initial) := by
  have hinitial : Kept [] .initial :=
    ⟨by simp [State.initial], by simp [State.initial, requiredEvidence], rfl⟩
  exact Machine.history_invariant step _ hinitial
    (fun _ _ hvalid _ h => kept_step hvalid h) calls fun _ _ => trivial

/-- The life cycle fails closed, in every run from the initial state. -/
theorem lifecycle_earned (calls : List Call) : Earned (Machine.trace step calls .initial)
    ∧ Kept (Machine.trace step calls .initial) (Machine.exec step calls .initial) := by
  refine ⟨fun pre e post hcut hne => ?_, kept_run calls⟩
  obtain ⟨before, input, after, -, rfl, rfl, -⟩ := Machine.trace_split step hcut
  have hkept := kept_run before
  cases input with
  | recordCompleted candidateId evidence =>
    refine absurd ?_ hne
    dsimp only [Machine.entry, step, recordCompleted]
    by_cases hblank : isBlank candidateId = true <;> simp [hblank]
  | attemptPromotion =>
    rcases attemptPromotion_cases (Machine.exec step before .initial) with
      ⟨heq, -⟩ | ⟨stage, hnext, hall, heq⟩
    · exact absurd (congrArg State.lifecycleStage heq) hne
    · have hstage := congrArg State.lifecycleStage heq
      dsimp only [Machine.entry, step]
      rw [hstage]
      exact ⟨hnext, fun x hx => (hkept.evidence x).mp (hall hx)⟩

end Centinal26.Improvement
