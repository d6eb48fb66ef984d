/-
The ledger of the wordbook's evolution: a hundred cycles, each of which has to start from the
corpus that the one before it produced.
-/
import Centinal26.Core.Audit
import Centinal26.Lib.Machine
import Mathlib.Data.List.Chain

namespace Centinal26.Wordbook

open Py Core Machine

-- == snapshots

def totalCycles : Nat := 100

structure CycleSpec where
  cycle : Int
  stage : PyStr
  objective : PyStr
  metricKeys : List PyStr

structure CorpusSnapshot where
  generation : Int
  corpusSha256 : PyStr
  parentSha256 : Option PyStr
  encounterCount : Int
  sourceCount : Int
  canonicalEntryCount : Int

/-- What the ledger gets from the language and the machine. -/
structure Libraries where
  host : Host
  /-- `int(s, 16)` returns -/
  isHex : PyStr → Bool

def checkDigest (L : Libraries) (field : String) (s : PyStr) : Except PyErr Unit :=
  if s.length ≠ 64 then .error (.valueError (field ++ " must be a SHA-256 hex digest"))
  else if L.isHex s then .ok ()
  else .error (.valueError "invalid literal for int() with base 16")

def CorpusSnapshot.validate (L : Libraries) (s : CorpusSnapshot) : Except PyErr Unit := do
  if s.generation < 0 then .error (.valueError "generation must be non-negative")
  checkDigest L "corpus_sha256" s.corpusSha256
  match s.parentSha256 with
  | none => .ok ()
  | some parent => checkDigest L "parent_sha256" parent
  if s.encounterCount < 0 ∨ s.sourceCount < 0 ∨ s.canonicalEntryCount < 0 then
    .error (.valueError "corpus counts must be non-negative")

-- == evidence

structure CycleEvidence where
  cycle : Int
  stage : PyStr
  objective : PyStr
  inputSha256 : PyStr
  outputSha256 : PyStr
  metrics : List (PyKey × PyVal)
  accepted : Bool
  reasons : List PyStr

def CycleEvidence.fields (e : CycleEvidence) : List (PyStr × PyVal) :=
  [(py "cycle", .int e.cycle), (py "stage", .str e.stage), (py "objective", .str e.objective),
    (py "input_sha256", .str e.inputSha256), (py "output_sha256", .str e.outputSha256),
    (py "metrics", .dict e.metrics), (py "accepted", .bool e.accepted),
    (py "reasons", .tuple (e.reasons.map .str))]

def CycleEvidence.digest (L : Libraries) (e : CycleEvidence) : Except PyErr Text := do
  let payload := (← dumps (.dict (strItems e.fields))).text AuditLog.compact
  .ok (L.host.sha256 (← encode payload))

-- == ledger

inductive Status : Type
  | active
  | complete100
  | reviewRequired
deriving DecidableEq

def Status.value : Status → String
  | .active => "ACTIVE"
  | .complete100 => "COMPLETE_100"
  | .reviewRequired => "REVIEW_REQUIRED"

structure EvolutionLedger where
  baselineSha256 : PyStr
  activeSnapshot : CorpusSnapshot
  nextCycle : Int
  evidenceChain : List Text
  status : Status

def EvolutionLedger.create (L : Libraries) (baseline : PyStr) (snapshot : CorpusSnapshot)
    (nextCycle : Int) : Except PyErr EvolutionLedger :=
  match snapshot.validate L with
  | .error e => .error e
  | .ok () =>
    if snapshot.generation ≠ 0 then
      .error (.valueError "non-baseline snapshots require evidence lineage")
    else if 1 ≤ nextCycle ∧ nextCycle ≤ totalCycles + 1 then
      .ok ⟨baseline, snapshot, nextCycle, [], .active⟩
    else .error (.valueError "next_cycle out of range")

structure Call where
  spec : CycleSpec
  output : CorpusSnapshot
  metrics : List (PyKey × PyVal)
  regression : Bool

def reason (found : Prop) [Decidable found] (text : PyStr) : List PyStr :=
  if found then [text] else []

/-- The required metrics that are not there. -/
def Call.missing (c : Call) : List PyStr :=
  c.spec.metricKeys.filter fun key => !c.metrics.any fun m => decide (m.1 = .str key)

def EvolutionLedger.reasons (l : EvolutionLedger) (c : Call) : List PyStr :=
  reason (l.status ≠ .active) (py "ledger_not_active:" ++ py l.status.value)
    ++ reason (c.spec.cycle ≠ l.nextCycle) (py "out_of_order:expected=" ++ intRepr l.nextCycle
      ++ py ":observed=" ++ intRepr c.spec.cycle)
    ++ reason (l.activeSnapshot.generation ≠ c.spec.cycle - 1)
      (py "input_generation_not_bound_to_cycle")
    ++ reason (c.output.generation ≠ c.spec.cycle) (py "output_generation_must_equal_cycle")
    ++ reason (c.output.parentSha256 ≠ some l.activeSnapshot.corpusSha256)
      (py "output_parent_does_not_match_active_corpus")
    ++ reason (c.output.corpusSha256 = l.activeSnapshot.corpusSha256)
      (py "cycle_produced_no_new_corpus_state")
    ++ reason (c.output.encounterCount < l.activeSnapshot.encounterCount)
      (py "encounter_history_regressed")
    ++ reason (c.output.sourceCount < l.activeSnapshot.sourceCount) (py "source_history_regressed")
    ++ reason (c.missing ≠ []) (py "missing_metrics:" ++ joinWith (py ",") c.missing)
    ++ reason (c.regression = true) (py "explicit_regression_flag")

def EvolutionLedger.evidence (l : EvolutionLedger) (c : Call) : CycleEvidence where
  cycle := c.spec.cycle
  stage := c.spec.stage
  objective := c.spec.objective
  inputSha256 := l.activeSnapshot.corpusSha256
  outputSha256 := c.output.corpusSha256
  metrics := c.metrics
  accepted := (l.reasons c).isEmpty
  reasons := l.reasons c

def EvolutionLedger.accept (l : EvolutionLedger) (c : Call) (digest : Text) : EvolutionLedger :=
  { l with
    evidenceChain := l.evidenceChain ++ [digest]
    activeSnapshot := c.output
    nextCycle := l.nextCycle + 1
    status := if l.nextCycle + 1 = totalCycles + 1 then .complete100 else l.status }

def EvolutionLedger.review (l : EvolutionLedger) (digest : Text) : EvolutionLedger :=
  { l with
    evidenceChain := l.evidenceChain ++ [digest]
    status := .reviewRequired }

/-- `advance`: what it returns or raises, and the ledger it leaves. -/
def advance (L : Libraries) (c : Call) (l : EvolutionLedger) :
    Except PyErr CycleEvidence × EvolutionLedger :=
  match c.output.validate L, (l.evidence c).digest L with
  | .error e, _ => (.error e, l)
  | .ok _, .error e => (.error e, l)
  | .ok _, .ok digest =>
    (.ok (l.evidence c), if (l.reasons c).isEmpty then l.accept c digest else l.review digest)

-- == calls

theorem reason_eq_nil {found : Prop} [Decidable found] {text : PyStr} :
    reason found text = [] ↔ ¬ found := by
  unfold reason
  split
  · next h => exact ⟨nofun, fun hnot => absurd h hnot⟩
  · next h => exact ⟨fun _ => h, fun _ => rfl⟩

structure Follows (before after : CorpusSnapshot) : Prop where
  generation : after.generation = before.generation + 1
  parent : after.parentSha256 = some before.corpusSha256
  new : after.corpusSha256 ≠ before.corpusSha256
  encounters : before.encounterCount ≤ after.encounterCount
  sources : before.sourceCount ≤ after.sourceCount

theorem reasons_eq_nil {l : EvolutionLedger} {c : Call} :
    l.reasons c = [] ↔ l.status = .active ∧ c.spec.cycle = l.nextCycle
      ∧ l.activeSnapshot.generation = c.spec.cycle - 1 ∧ Follows l.activeSnapshot c.output
      ∧ c.missing = [] ∧ c.regression = false := by
  unfold EvolutionLedger.reasons
  simp only [List.append_eq_nil_iff, reason_eq_nil, not_not, Int.not_lt, Bool.not_eq_true]
  constructor
  · rintro ⟨⟨⟨⟨⟨⟨⟨⟨⟨hactive, hcycle⟩, hinput⟩, houtput⟩, hparent⟩, hnew⟩, hencounters⟩, hsources⟩,
      hmissing⟩, hregression⟩
    exact ⟨hactive, hcycle, hinput, ⟨by omega, hparent, hnew, hencounters, hsources⟩, hmissing,
      hregression⟩
  · rintro ⟨hactive, hcycle, hinput, hfollows, hmissing, hregression⟩
    have houtput : c.output.generation = c.spec.cycle := by
      rw [hfollows.generation, hinput]
      omega
    exact ⟨⟨⟨⟨⟨⟨⟨⟨⟨hactive, hcycle⟩, hinput⟩, houtput⟩, hfollows.parent⟩, hfollows.new⟩,
      hfollows.encounters⟩, hfollows.sources⟩, hmissing⟩, hregression⟩

theorem advance_cases (L : Libraries) (c : Call) (l : EvolutionLedger) :
    (∃ e, advance L c l = (.error e, l))
    ∨ (∃ digest, l.reasons c = [] ∧ advance L c l = (.ok (l.evidence c), l.accept c digest))
    ∨ ∃ digest, l.reasons c ≠ [] ∧ advance L c l = (.ok (l.evidence c), l.review digest) := by
  unfold advance
  split
  · next e _ => exact .inl ⟨e, rfl⟩
  · next e _ _ => exact .inl ⟨e, rfl⟩
  · next digest _ _ =>
    cases hl : l.reasons c with
    | nil => exact .inr (.inl ⟨digest, rfl, rfl⟩)
    | cons r rs => exact .inr (.inr ⟨digest, List.cons_ne_nil r rs, rfl⟩)

-- == runs

abbrev Step := Entry Call (Except PyErr CycleEvidence) EvolutionLedger

def Step.accepted? (e : Step) : Option CorpusSnapshot :=
  match e.output with
  | .ok evidence => if evidence.accepted then some e.input.output else none
  | .error _ => none

/-- A call returned and was not accepted. -/
def Step.rejected (e : Step) : Bool :=
  match e.output with
  | .ok evidence => !evidence.accepted
  | .error _ => false

def accepted (past : List Step) : List CorpusSnapshot := past.filterMap Step.accepted?

def statusAfter (past : List Step) : Status :=
  if past.any Step.rejected then .reviewRequired
  else if (accepted past).length = totalCycles then .complete100
  else .active

structure Lineage (baseline : CorpusSnapshot) (past : List Step) (l : EvolutionLedger) : Prop where
  generation : l.activeSnapshot.generation = l.nextCycle - 1
  cycles : l.nextCycle - 1 = (accepted past).length
  bound : (accepted past).length ≤ totalCycles
  chain : l.evidenceChain.length = past.countP fun e => e.output.isOk
  lineage : (baseline :: accepted past).IsChain Follows
  active : (baseline :: accepted past).getLast? = some l.activeSnapshot
  status : l.status = statusAfter past

/-- What a step leaves alone: the snapshot and the cycle, unless it is accepted, and the counts
never go back. -/
structure Kept (e : Step) : Prop where
  unless_accepted : e.accepted? = none →
    e.after.activeSnapshot = e.before.activeSnapshot ∧ e.after.nextCycle = e.before.nextCycle
  encounters : e.before.activeSnapshot.encounterCount ≤ e.after.activeSnapshot.encounterCount
  sources : e.before.activeSnapshot.sourceCount ≤ e.after.activeSnapshot.sourceCount

theorem accepted_concat (past : List Step) (e : Step) :
    accepted (past ++ [e]) = accepted past ++ e.accepted?.toList := by
  unfold accepted
  rw [List.filterMap_append]
  cases h : e.accepted? <;> simp [h]

variable {L : Libraries} {baseline : CorpusSnapshot}

theorem kept_of_valid {e : Step} (h : e.Valid (advance L)) : Kept e := by
  obtain ⟨c, l, out, l'⟩ := e
  change advance L c l = (out, l') at h
  rcases advance_cases L c l with ⟨e, heq⟩ | ⟨digest, hnil, heq⟩ | ⟨digest, hne, heq⟩
  all_goals
    rw [heq] at h
    obtain ⟨rfl, rfl⟩ := Prod.mk.inj h
  · exact ⟨fun _ => ⟨rfl, rfl⟩, Int.le_refl _, Int.le_refl _⟩
  · have hfollows := (reasons_eq_nil.mp hnil).2.2.2.1
    refine ⟨fun hnone => ?_, hfollows.encounters, hfollows.sources⟩
    simp [Step.accepted?, EvolutionLedger.evidence, hnil] at hnone
  · exact ⟨fun _ => ⟨rfl, rfl⟩, Int.le_refl _, Int.le_refl _⟩

theorem lineage_step {past : List Step} {e : Step} (h : e.Valid (advance L))
    (hpast : Lineage baseline past e.before) : Lineage baseline (past ++ [e]) e.after := by
  obtain ⟨c, l, out, l'⟩ := e
  change advance L c l = (out, l') at h
  change Lineage baseline past l at hpast
  rcases advance_cases L c l with ⟨e, heq⟩ | ⟨digest, hnil, heq⟩ | ⟨digest, hne, heq⟩
  all_goals
    rw [heq] at h
    obtain ⟨rfl, rfl⟩ := Prod.mk.inj h
  · -- it raised
    have haccepted : accepted (past ++ [⟨c, l, .error e, l⟩]) = accepted past := by
      rw [accepted_concat]
      exact List.append_nil _
    refine ⟨hpast.generation, ?_, ?_, ?_, ?_, ?_, ?_⟩
    · rw [haccepted]; exact hpast.cycles
    · rw [haccepted]; exact hpast.bound
    · rw [List.countP_append]; exact hpast.chain
    · rw [haccepted]; exact hpast.lineage
    · rw [haccepted]; exact hpast.active
    · rw [hpast.status]
      unfold statusAfter
      rw [haccepted, List.any_append]
      simp [Step.rejected]
  · -- it was accepted
    obtain ⟨hactive, hcycle, hinput, hfollows, -, -⟩ := reasons_eq_nil.mp hnil
    have hsome : Step.accepted? (⟨c, l, .ok (l.evidence c), l.accept c digest⟩ : Step)
        = some c.output := by
      simp [Step.accepted?, EvolutionLedger.evidence, hnil]
    have hkept : Step.rejected (⟨c, l, .ok (l.evidence c), l.accept c digest⟩ : Step) = false := by
      simp [Step.rejected, EvolutionLedger.evidence, hnil]
    have hstatus := hpast.status
    rw [hactive] at hstatus
    have hnone : past.any Step.rejected = false := by
      by_contra hany
      rw [Bool.not_eq_false] at hany
      rw [statusAfter, if_pos hany] at hstatus
      cases hstatus
    have hlt : (accepted past).length ≠ totalCycles := by
      intro hfull
      rw [statusAfter, hnone, if_neg (by decide), if_pos hfull] at hstatus
      cases hstatus
    have hbound := hpast.bound
    have hcycles := hpast.cycles
    refine ⟨?_, ?_, ?_, ?_, ?_, ?_, ?_⟩
    · show c.output.generation = l.nextCycle + 1 - 1
      rw [hfollows.generation, hpast.generation]
      omega
    · rw [accepted_concat, hsome, List.length_append]
      show l.nextCycle + 1 - 1 = (((accepted past).length + 1 : Nat) : Int)
      omega
    · rw [accepted_concat, hsome, List.length_append]
      show (accepted past).length + 1 ≤ totalCycles
      omega
    · rw [List.countP_append, ← hpast.chain]
      exact List.length_append
    · rw [accepted_concat, hsome, ← List.cons_append, List.isChain_append]
      refine ⟨hpast.lineage, List.isChain_singleton _, fun x hx y hy => ?_⟩
      rw [hpast.active, Option.mem_some_iff] at hx
      rw [Option.toList_some, List.head?_cons, Option.mem_some_iff] at hy
      rw [← hx, ← hy]
      exact hfollows
    · rw [accepted_concat, hsome, ← List.cons_append, Option.toList_some, List.getLast?_concat]
      rfl
    · unfold statusAfter
      rw [List.any_append, List.any_cons, List.any_nil, hnone, hkept, accepted_concat, hsome,
        List.length_append]
      show (if l.nextCycle + 1 = totalCycles + 1 then Status.complete100 else l.status)
        = if (accepted past).length + 1 = totalCycles then _ else _
      rw [hactive]
      refine if_congr ?_ rfl rfl
      omega
  · -- it was rejected
    have haccepted : ∀ l', accepted (past ++ [⟨c, l, .ok (l.evidence c), l'⟩]) = accepted past := by
      intro l'
      rw [accepted_concat]
      have hnone : Step.accepted? (⟨c, l, .ok (l.evidence c), l'⟩ : Step) = none := by
        simp [Step.accepted?, EvolutionLedger.evidence, hne]
      rw [hnone]
      exact List.append_nil _
    refine ⟨hpast.generation, ?_, ?_, ?_, ?_, ?_, ?_⟩
    · rw [haccepted]; exact hpast.cycles
    · rw [haccepted]; exact hpast.bound
    · rw [List.countP_append, ← hpast.chain]
      exact List.length_append
    · rw [haccepted]; exact hpast.lineage
    · rw [haccepted]; exact hpast.active
    · unfold statusAfter
      rw [List.any_append]
      simp [Step.rejected, EvolutionLedger.evidence, EvolutionLedger.review, hne]

/-- Over every run of a ledger made with a first snapshot: what the ledger is, and what each call
leaves alone. -/
theorem ledger_lineage (L : Libraries) (baseline : PyStr) (snapshot : CorpusSnapshot)
    (l : EvolutionLedger) (hcreate : EvolutionLedger.create L baseline snapshot 1 = .ok l)
    (calls : List Call) : Lineage snapshot (trace (advance L) calls l) (exec (advance L) calls l)
      ∧ (∀ e ∈ trace (advance L) calls l, Kept e)
      ∧ ((exec (advance L) calls l).status = .complete100
        ↔ (accepted (trace (advance L) calls l)).length = totalCycles
          ∧ ∀ e ∈ trace (advance L) calls l, Step.rejected e = false) := by
  have hstart : Lineage snapshot [] l := by
    unfold EvolutionLedger.create at hcreate
    split at hcreate
    · cases hcreate
    · split at hcreate
      · cases hcreate
      · next hgeneration =>
        rw [if_pos (by decide)] at hcreate
        cases hcreate
        have hzero : snapshot.generation = 0 := not_not.mp hgeneration
        exact ⟨hzero, rfl, by decide, rfl, List.isChain_singleton _, rfl, rfl⟩
  have hlineage : Lineage snapshot (trace (advance L) calls l) (exec (advance L) calls l) :=
    history_invariant (C := fun _ => True) (advance L) l hstart
      (fun _ _ hvalid _ hpast => lineage_step hvalid hpast) calls fun _ _ => trivial
  refine ⟨hlineage, fun e he => ?_, ?_⟩
  · obtain ⟨past, rest, hsplit⟩ := List.append_of_mem he
    obtain ⟨js, i, ks, -, -, rfl, -⟩ := trace_split (advance L) hsplit
    exact kept_of_valid (entry_valid (advance L) i _)
  · rw [hlineage.status]
    unfold statusAfter
    constructor
    · intro hcomplete
      split at hcomplete
      · cases hcomplete
      · next hnone =>
        split at hcomplete
        · next hfull =>
          refine ⟨hfull, fun e he => ?_⟩
          by_contra hrejected
          exact hnone (List.any_eq_true.mpr ⟨e, he, Bool.not_eq_false _ ▸ hrejected⟩)
        · cases hcomplete
    · rintro ⟨hfull, hnone⟩
      have hany : (trace (advance L) calls l).any Step.rejected = false :=
        List.any_eq_false.mpr fun e he => by rw [hnone e he]; decide
      rw [hany, if_neg (by decide), if_pos hfull]

-- == an example

namespace Sample

/-- Every text is a number, and a machine to try things on. -/
def libraries : Libraries := ⟨Host.sample fun _ => 0, fun _ => true⟩

/-- The snapshot of a generation: its digest is one character, sixty-four times. -/
def snapshot (n : Nat) : CorpusSnapshot where
  generation := n
  corpusSha256 := List.replicate 64 n
  parentSha256 := if n = 0 then none else some (List.replicate 64 (n - 1))
  encounterCount := 0
  sourceCount := 0
  canonicalEntryCount := 0

def start : EvolutionLedger := ⟨[], snapshot 0, 1, [], .active⟩

def call (n : Nat) : Call := ⟨⟨n, [], [], []⟩, snapshot n, [], false⟩

/-- The calls of a run that goes one cycle beyond the last. -/
def calls : List Call := (List.range (totalCycles + 1)).map fun n => call (n + 1)

theorem created : EvolutionLedger.create libraries [] (snapshot 0) 1 = .ok start := rfl

end Sample

theorem ledger_lineage_sample :
    Lineage (Sample.snapshot 0) (trace (advance Sample.libraries) Sample.calls Sample.start)
        (exec (advance Sample.libraries) Sample.calls Sample.start)
      ∧ (∀ e ∈ trace (advance Sample.libraries) Sample.calls Sample.start, Kept e)
      ∧ ((exec (advance Sample.libraries) Sample.calls Sample.start).status = .complete100
        ↔ (accepted (trace (advance Sample.libraries) Sample.calls Sample.start)).length
            = totalCycles
          ∧ ∀ e ∈ trace (advance Sample.libraries) Sample.calls Sample.start,
            Step.rejected e = false) :=
  ledger_lineage Sample.libraries [] (Sample.snapshot 0) Sample.start Sample.created Sample.calls

namespace Sample

theorem digest_isOk (l : EvolutionLedger) {n : Nat} (h : n ≤ 101) :
    ∃ digest, (l.evidence (call n)).digest libraries = .ok digest := by
  have hreasons : ∀ rs : List PyStr, (dumps (.tuple (rs.map .str))).isOk = true := by
    intro rs
    induction rs with
    | nil => rfl
    | cons r rs ih =>
      rw [dumps] at ih ⊢
      rw [List.map_cons, dumpsList, dumps]
      cases hrest : dumpsList (rs.map .str) with
      | error e =>
        rw [hrest] at ih
        cases ih
      | ok ds => rfl
  have hcycle : checkDigits (n : Int) = .ok () := by
    have hpow : (10 : Nat) ^ 3 ≤ 10 ^ 4300 := Nat.pow_le_pow_right (by decide) (by decide)
    unfold checkDigits
    rw [if_pos]
    rw [Int.natAbs_natCast]
    omega
  have hint : (dumps (.int n)).isOk = true := by
    rw [dumps, hcycle]
    rfl
  have hwritten : (dumps (.dict (strItems (l.evidence (call n)).fields))).isOk = true := by
    rw [dumps_record_isOk]
    simp only [CycleEvidence.fields, List.forall_mem_cons, AuditLog.dumps_str_isOk, hreasons,
      List.not_mem_nil, false_implies, implies_true, and_true, true_and]
    exact ⟨hint, rfl, rfl⟩
  obtain ⟨doc, hdoc⟩ := exists_ok hwritten
  let text : Text := ⟨doc.text AuditLog.compact,
    (ascii_text AuditLog.isAscii_compact doc).encodable⟩
  refine ⟨libraries.host.sha256 text, ?_⟩
  unfold CycleEvidence.digest
  rw [hdoc]
  show (do .ok (libraries.host.sha256 (← encode text.str)) : Except PyErr Text) = _
  rw [encode_str]
  rfl

theorem snapshot_valid (n : Nat) : (snapshot n).validate libraries = .ok () := by
  have hdigest : ∀ field (c : Nat), checkDigest libraries field (List.replicate 64 c) = .ok () := by
    intro field c
    unfold checkDigest
    rw [if_neg (by simp)]
    rfl
  have hpositive : ¬ ((n : Int) < 0) := by omega
  simp only [CorpusSnapshot.validate, snapshot, hpositive, hdigest, if_false]
  by_cases h : n = 0
  · rw [if_pos h]
    rfl
  · rw [if_neg h]
    dsimp only
    rw [hdigest]
    rfl

theorem cycles_accepted (n : Nat) (h : n ≤ totalCycles) :
    let l := exec (advance libraries) ((List.range n).map fun n => call (n + 1)) start
    l.activeSnapshot = snapshot n ∧ l.nextCycle = n + 1
      ∧ l.status = if n = totalCycles then .complete100 else .active := by
  induction n with
  | zero => exact ⟨rfl, rfl, rfl⟩
  | succ n ih =>
    obtain ⟨hactive, hnext, hstatus⟩ := ih (by omega)
    rw [if_neg (by omega)] at hstatus
    dsimp only
    rw [List.range_succ, List.map_append, List.map_singleton, exec_concat]
    generalize exec (advance libraries) ((List.range n).map fun n => call (n + 1)) start = l
      at hactive hnext hstatus ⊢
    have hnew : List.replicate 64 (n + 1) ≠ List.replicate 64 n := by
      intro heq
      have hhead := congrArg List.head? heq
      simp only [List.replicate_succ, List.head?_cons, Option.some_inj] at hhead
      omega
    have hfollows : Follows l.activeSnapshot (call (n + 1)).output := by
      rw [hactive]
      exact ⟨rfl, rfl, hnew, Int.le_refl _, Int.le_refl _⟩
    have hnil : l.reasons (call (n + 1)) = [] := by
      refine reasons_eq_nil.mpr ⟨hstatus, ?_, ?_, hfollows, rfl, rfl⟩
      · rw [hnext]
        rfl
      · rw [hactive]
        show (n : Int) = (n + 1 : Nat) - 1
        omega
    obtain ⟨digest, hdigest⟩ := digest_isOk l (n := n + 1) (by unfold totalCycles at h; omega)
    have hstep : advance libraries (call (n + 1)) l
        = (.ok (l.evidence (call (n + 1))), l.accept (call (n + 1)) digest) := by
      have hvalid : (call (n + 1)).output.validate libraries = .ok () := snapshot_valid (n + 1)
      unfold advance
      rw [hvalid, hdigest, hnil]
      rfl
    rw [hstep]
    refine ⟨rfl, ?_, ?_⟩
    · show l.nextCycle + 1 = ((n + 1 : Nat) : Int) + 1
      rw [hnext]
      rfl
    · show (if l.nextCycle + 1 = totalCycles + 1 then Status.complete100 else l.status) = _
      rw [hstatus, hnext]
      refine if_congr ?_ rfl rfl
      omega

theorem calls_eq : calls = ((List.range totalCycles).map fun n => call (n + 1))
    ++ [call (totalCycles + 1)] := by
  unfold calls
  rw [List.range_succ, List.map_append, List.map_singleton]

theorem advance_complete {l : EvolutionLedger} (hstatus : l.status = .complete100) {n : Nat}
    (h : n ≤ 101) :
    ∃ digest, advance libraries (call n) l = (.ok (l.evidence (call n)), l.review digest) := by
  have hne : l.reasons (call n) ≠ [] := by
    intro hnil
    rw [(reasons_eq_nil.mp hnil).1] at hstatus
    cases hstatus
  obtain ⟨digest, hdigest⟩ := digest_isOk l h
  have hvalid : (call n).output.validate libraries = .ok () := snapshot_valid n
  rcases advance_cases libraries (call n) l with
    ⟨e, heq⟩ | ⟨digest', hnil, -⟩ | ⟨digest', -, heq⟩
  · unfold advance at heq
    rw [hvalid, hdigest] at heq
    cases heq
  · exact absurd hnil hne
  · exact ⟨digest', heq⟩

theorem exec_calls : ∃ (l : EvolutionLedger) (digest : Text), l.nextCycle = totalCycles + 1
    ∧ exec (advance libraries) calls start = l.review digest := by
  obtain ⟨-, hnext, hstatus⟩ := cycles_accepted totalCycles (Nat.le_refl _)
  rw [if_pos rfl] at hstatus
  obtain ⟨digest, hlast⟩ := advance_complete hstatus (n := totalCycles + 1) (by decide)
  refine ⟨_, digest, hnext, ?_⟩
  rw [calls_eq, exec_concat, hlast]

end Sample

/-- A hundred cycles are accepted, and the ledger is not complete: it was called once more. -/
theorem ledger_lineage_review :
    (accepted (trace (advance Sample.libraries) Sample.calls Sample.start)).length = totalCycles
      ∧ (exec (advance Sample.libraries) Sample.calls Sample.start).status = .reviewRequired := by
  have hcycles := (history_invariant (C := fun _ => True) (advance Sample.libraries)
    (I := Lineage (Sample.snapshot 0)) Sample.start
    ⟨rfl, rfl, by decide, rfl, List.isChain_singleton _, rfl, rfl⟩
    (fun _ _ hvalid _ hpast => lineage_step hvalid hpast) Sample.calls fun _ _ => trivial).cycles
  obtain ⟨l, digest, hnext, hexec⟩ := Sample.exec_calls
  rw [hexec] at hcycles ⊢
  refine ⟨?_, rfl⟩
  have hreview : (l.review digest).nextCycle = l.nextCycle := rfl
  rw [hreview, hnext] at hcycles
  omega

end Centinal26.Wordbook
