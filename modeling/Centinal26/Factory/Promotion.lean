/-
Who is promoted, in a pool of ledgers.
-/
import Centinal26.Factory.Ledger
import Centinal26.Lib.Since

namespace Centinal26.Factory

open Py Steps

-- == gates

/-- All mandatory gates are recorded as passed for the identity. -/
def AllPassed (db : Db) (c identity : Text) : Prop :=
  ∀ g : Gate, ∃ row, db.gates.find? (c, identity, g) = some row ∧ row.passed = true

variable {c : Text} {α : Type} {e : Step} {past : List Step}

variable {identity : Text} {gates : List GateRow} {β : Type} {p : FProg α} {H : Host}

theorem allPassed_of_failedGates {db : Db}
    (h : failedGates (db.gatesOf c identity) = []) : AllPassed db c identity := by
  intro g
  have hg : observed? (db.gatesOf c identity) g = some true := by
    have hnot := List.filter_eq_nil_iff.mp h g (Gate.mem_all g)
    cases ho : observed? (db.gatesOf c identity) g with
    | none => simp [ho] at hnot
    | some passed =>
      rw [ho] at hnot
      simpa using hnot
  unfold observed? at hg
  obtain ⟨row, hfind, hpassed⟩ := Option.map_eq_some_iff.mp hg
  have hgate : row.gate = g := by simpa using List.find?_some hfind
  obtain ⟨hmem, hkey⟩ := List.mem_filter.mp (List.mem_of_find?_eq_some hfind)
  rw [decide_eq_true_eq] at hkey
  refine ⟨row, Table.find?_eq_some_iff.mpr ⟨hmem, ?_⟩, hpassed⟩
  rw [GateRow.key, hkey.1, hkey.2, hgate]

theorem failedGates_of_nextStage {previous : CapabilityStage}
    (h : (nextStage previous gates).1 = .promoted) : failedGates gates = [] := by
  unfold nextStage at h
  split at h
  · assumption
  · next hfailed =>
    split at h
    · cases h
    · next hprevious =>
      split at h
      · cases h
      · split at h
        · cases h
        · split at h
          · cases h
          · exact absurd h hprevious

-- == outlines

/-- A write puts no capability on the promoted stage, unless it is the end of an
evaluation that has read no failed gate. -/
def Write.Sound : Write → Prop
  | .discover row => row.stage ≠ .promoted
  | .advance _ stage => stage ≠ .promoted
  | .settle _ _ gates stage => stage = .promoted → failedGates gates = []
  | _ => True

def Access.Does (db db' : Db) : Access → Prop
  | .write w => w.Sound ∧ db' = w.apply db
  | _ => db' = db

abbrev Outlined {α : Type} (p : FProg α) (Q : α → Prop) : Prop :=
  p.Sat (fun _ _ _ => True) (fun (_ : Unit) l db db' => l.Does db db')
    (fun _ _ _ _ => ()) (fun _ a => Q a) (fun _ _ => True) ()

theorem outlined_ofExcept (r : Except PyErr α) : Outlined (Prog.ofExcept r) fun _ => True := by
  cases r <;> exact trivial

theorem outlined_read {l : Access} {f : Db → Except PyErr α}
    (hl : ∀ db, l.Does db db) : Outlined (readStep l f) fun _ => True :=
  Prog.Sat.of_block fun db _ => by
    refine ⟨hl db, ?_⟩
    cases f db <;> exact trivial

theorem outlined_write {w : Write} (hw : w.Sound) : Outlined (writeStep w) fun _ => True :=
  Prog.Sat.of_block fun _ _ => ⟨⟨hw, rfl⟩, trivial⟩

theorem Outlined.bind {f : α → FProg β} {Q : β → Prop}
    (hp : Outlined p fun _ => True) (hf : ∀ a, Outlined (f a) Q) : Outlined (p >>= f) Q :=
  Prog.Sat.bind hp fun _ a _ => hf a

theorem Outlined.map (f : α → β) (hp : Outlined p fun _ => True) :
    Outlined (f <$> p) fun _ => True :=
  Outlined.bind hp fun _ => trivial

theorem candidateRow_outlined (capabilityId : PyStr) :
    Outlined (candidateRow capabilityId) fun _ => True := by
  unfold candidateRow
  refine .bind (outlined_ofExcept _) fun id => ?_
  exact outlined_read fun _ => rfl

theorem discover_outlined (H : Host) (c : CapabilityCandidate) :
    Outlined (discover H c) fun _ => True := by
  unfold discover
  split
  · exact trivial
  · split
    · exact trivial
    · refine .bind (outlined_ofExcept _) fun id => ?_
      refine .bind (outlined_read fun _ => rfl) fun row => ?_
      refine .bind (outlined_ofExcept _) fun identity => ?_
      split
      · exact trivial
      · refine .bind (outlined_ofExcept _) fun document => ?_
        exact .bind (outlined_write (w := .discover _) fun h => by cases h) fun _ => trivial

theorem advanceStructural_outlined (capabilityId : PyStr) (target : CapabilityStage) :
    Outlined (advanceStructural capabilityId target) fun _ => True := by
  unfold advanceStructural
  split
  · exact trivial
  · next targetIndex htarget =>
    split
    · exact trivial
    · next hlow =>
      have hstage : target ≠ .promoted := by
        rintro rfl
        cases htarget
        exact hlow (by decide)
      refine .bind (candidateRow_outlined _) fun row => ?_
      split
      · exact trivial
      · split
        · exact trivial
        · split
          · exact trivial
          · exact .bind (outlined_write (w := .advance _ _) hstage) fun _ => trivial

theorem recordGate_outlined (capabilityId gate : PyStr) (passed : Bool) (evidence : PyVal) :
    Outlined (recordGate capabilityId gate passed evidence) fun _ => True := by
  unfold recordGate
  split
  · exact trivial
  · refine .bind (candidateRow_outlined _) fun row => ?_
    refine .bind (outlined_ofExcept _) fun evidence => ?_
    exact outlined_write (w := .gate _) trivial

theorem evaluate_outlined (H : Host) (capabilityId : PyStr) :
    Outlined (evaluate H capabilityId) fun _ => True := by
  unfold evaluate
  refine .bind (candidateRow_outlined _) fun row => ?_
  refine .bind (outlined_read fun _ => rfl) fun gates => ?_
  refine .bind (outlined_ofExcept _) fun hash => ?_
  refine .bind (outlined_write (w := .settle _ _ _ _) failedGates_of_nextStage) fun _ => ?_
  exact .bind (outlined_write (w := .decide _) trivial) fun _ => trivial

theorem steps_outlined (H : Host) (op : Op) : Outlined (op.steps H) fun _ => True := by
  cases op with
  | discover c => exact .map _ (discover_outlined H c)
  | advanceStructural capabilityId target =>
    exact .map _ (advanceStructural_outlined capabilityId target)
  | recordGate capabilityId gate passed evidence =>
    exact .map _ (recordGate_outlined capabilityId gate passed evidence)
  | evaluate capabilityId => exact .map _ (evaluate_outlined H capabilityId)

-- == steps

/-- What an entry does to the database. -/
inductive Moves (e : Step) : Prop
  | wrote {i : Nat} {w : Write} (ho : e.output = .stepped i (.write w) ()) (hw : w.Sound)
      (h : e.after.shared = w.apply e.before.shared)
  | still (h : e.after.shared = e.before.shared)

abbrev AllOutlined (p : Procs) : Prop :=
  Pool.AllSat (fun _ _ _ _ => ()) (fun _ _ _ => True)
    (fun (_ : Unit) l db db' => Access.Does db db' l) (fun _ _ => True) (fun _ _ => True) p

theorem moves_step (hv : e.Valid (step H)) (hsat : AllOutlined e.before) :
    Moves e ∧ AllOutlined e.after := by
  have hmeets : Pool.Meets (fun (_ : Unit) (_ : Access) (_ : Db) => True) e :=
    fun _ _ _ _ => trivial
  refine ⟨?_, Pool.sat_step _ _ _ _ (fun _ op _ => steps_outlined H op) hv hmeets hsat⟩
  rcases Pool.stepped_or_still _ _ _ _ hv hmeets (fun _ _ => rfl) hsat with
    ⟨i, l, g, ho, hdoes⟩ | ⟨-, hstill⟩
  · cases l with
    | write w => exact .wrote ho hdoes.1 hdoes.2
    | candidate => exact .still hdoes
    | gates => exact .still hdoes
  · exact .still hstill

-- == promotions

def Db.identity? (db : Db) (c : Text) : Option Text :=
  (db.candidates.find? c).map CandidateRow.identity

def Db.stage? (db : Db) (c : Text) : Option CapabilityStage :=
  (db.candidates.find? c).map CandidateRow.stage

theorem identity?_setStage (db : Db) (c c' : Text) (stage : CapabilityStage) :
    (db.setStage c stage).identity? c' = db.identity? c' := by
  unfold Db.identity? Db.setStage
  rw [Table.find?_modify]
  split
  · next h =>
    rw [h]
    cases db.candidates.find? c <;> rfl
  · rfl

theorem stage?_setStage (db : Db) (c c' : Text) (stage : CapabilityStage) :
    (db.setStage c stage).stage? c'
      = if c' = c then (db.stage? c).map fun _ => stage else db.stage? c' := by
  unfold Db.stage? Db.setStage
  rw [Table.find?_modify]
  split
  · cases db.candidates.find? c <;> rfl
  · rfl

def outcomes (gates : List GateRow) : List (Gate × Bool) := gates.map fun r => (r.gate, r.passed)

theorem failedGates_congr {gates' : List GateRow} (h : outcomes gates = outcomes gates') :
    failedGates gates = failedGates gates' := by
  have hobserved : ∀ (gs : List GateRow) (g : Gate), observed? gs g
      = ((outcomes gs).find? fun m => decide (m.1 = g)).map Prod.snd := by
    intro gs g
    unfold observed? outcomes
    rw [List.find?_map, Option.map_map]
    rfl
  unfold failedGates
  simp only [hobserved, h]

/-- No evaluation is overtaken: as one promotes, the identity is the one it has read, and
the gates say what they have said. -/
def Undisturbed (e : Step) : Prop :=
  ∀ i c identity gates g, e.output = .stepped i (.write (.settle c identity gates .promoted)) g →
    e.before.shared.identity? c = some identity
      ∧ outcomes (e.before.shared.gatesOf c identity) = outcomes gates

/-- The step is the end of an evaluation that promotes the capability, and all gates are
passed for the identity. -/
def Promotes (c identity : Text) (e : Step) : Prop :=
  (∃ i gates g, e.output = .stepped i (.write (.settle c identity gates .promoted)) g)
    ∧ AllPassed e.before.shared c identity

/-- The step changes the identity of the capability. -/
def Changes (c : Text) (e : Step) : Prop :=
  e.after.shared.identity? c ≠ e.before.shared.identity? c

/-- Wherever a capability becomes promoted, all gates are passed for its identity. -/
def Earned (e : Step) : Prop :=
  ∀ c, e.after.shared.stage? c = some .promoted → e.before.shared.stage? c ≠ some .promoted →
    ∃ identity, e.after.shared.identity? c = some identity ∧ AllPassed e.after.shared c identity

/-- A capability on the promoted stage has been promoted for its identity. -/
def Held (past : List Step) (db : Db) : Prop :=
  ∀ c, db.stage? c = some .promoted →
    ∃ identity, db.identity? c = some identity ∧ past.Since (Promotes c identity) (Changes c)

theorem since_keep (h : past.Since (Promotes c identity) (Changes c)) (hkeep : ¬ Changes c e) :
    (past ++ [e]).Since (Promotes c identity) (Changes c) :=
  List.since_concat.mpr (Or.inr ⟨hkeep, h⟩)

theorem held_setStage {stage : CapabilityStage}
    (hafter : e.after.shared = e.before.shared.setStage c stage) (hstage : stage ≠ .promoted)
    (h : Held past e.before.shared) : Earned e ∧ Held (past ++ [e]) e.after.shared := by
  have hbefore : ∀ c', e.after.shared.stage? c' = some .promoted →
      e.before.shared.stage? c' = some .promoted := by
    intro c' hc'
    rw [hafter, stage?_setStage] at hc'
    split at hc'
    · obtain ⟨-, -, heq⟩ := Option.map_eq_some_iff.mp hc'
      exact absurd heq hstage
    · exact hc'
  refine ⟨fun c' hc' hnot => absurd (hbefore c' hc') hnot, fun c' hc' => ?_⟩
  obtain ⟨identity, hidentity, hsince⟩ := h c' (hbefore c' hc')
  have hsame : e.after.shared.identity? c' = e.before.shared.identity? c' := by
    rw [hafter, identity?_setStage]
  exact ⟨identity, hsame.trans hidentity, since_keep hsince fun hc => hc hsame⟩

theorem held_step (hmoves : Moves e) (hundisturbed : Undisturbed e)
    (h : Held past e.before.shared) : Earned e ∧ Held (past ++ [e]) e.after.shared := by
  have same : e.after.shared.candidates = e.before.shared.candidates →
      Earned e ∧ Held (past ++ [e]) e.after.shared := by
    intro hsame
    have hstage : ∀ c, e.after.shared.stage? c = e.before.shared.stage? c := fun c => by
      unfold Db.stage?
      rw [hsame]
    have hidentity : ∀ c, e.after.shared.identity? c = e.before.shared.identity? c := fun c => by
      unfold Db.identity?
      rw [hsame]
    refine ⟨fun c hc hnot => absurd ((hstage c).symm.trans hc) hnot, fun c hc => ?_⟩
    obtain ⟨identity, hid, hsince⟩ := h c ((hstage c).symm.trans hc)
    exact ⟨identity, (hidentity c).trans hid, since_keep hsince fun hch => hch (hidentity c)⟩
  cases hmoves with
  | still hstill => exact same (by rw [hstill])
  | wrote ho hw hafter =>
    next i w =>
    cases w with
    | gate row => exact same (by rw [hafter]; rfl)
    | decide d => exact same (by rw [hafter]; rfl)
    | advance c stage => exact held_setStage hafter hw h
    | discover row =>
      have hfind : ∀ c, e.after.shared.candidates.find? c
          = if c = row.capabilityId then some row else e.before.shared.candidates.find? c :=
        fun c => by
          rw [hafter]
          exact Table.find?_upsert _ row c
      have hother : ∀ c, e.after.shared.stage? c = some .promoted →
          e.after.shared.candidates.find? c = e.before.shared.candidates.find? c := by
        intro c hc
        by_cases hrow : c = row.capabilityId
        · unfold Db.stage? at hc
          rw [hfind, if_pos hrow] at hc
          exact absurd (Option.some_inj.mp hc) hw
        · rw [hfind, if_neg hrow]
      refine ⟨fun c hc hnot => absurd ?_ hnot, fun c hc => ?_⟩
      · unfold Db.stage? at hc ⊢
        rwa [← hother c hc]
      · have hsame := hother c hc
        obtain ⟨identity, hid, hsince⟩ := h c (by
          unfold Db.stage? at hc ⊢
          rwa [← hsame])
        refine ⟨identity, ?_, since_keep hsince fun hch => hch ?_⟩
        · unfold Db.identity? at hid ⊢
          rw [hsame, hid]
        · unfold Db.identity?
          rw [hsame]
    | settle c identity gates stage =>
      by_cases hstage : stage = .promoted
      · subst hstage
        obtain ⟨hidentity, hgates⟩ := hundisturbed i c identity gates () ho
        have hpassed : AllPassed e.before.shared c identity :=
          allPassed_of_failedGates ((failedGates_congr hgates).trans (hw rfl))
        have hkept : ∀ c', e.after.shared.identity? c' = e.before.shared.identity? c' :=
          fun c' => by
            rw [hafter]
            exact identity?_setStage _ _ _ _
        have hother : ∀ c', c' ≠ c → e.after.shared.stage? c' = e.before.shared.stage? c' :=
          fun c' hc' => by
            rw [hafter]
            exact (stage?_setStage _ _ _ _).trans (if_neg hc')
        refine ⟨fun c' hc' hnot => ?_, fun c' hc' => ?_⟩
        · by_cases heq : c' = c
          · subst heq
            refine ⟨identity, (hkept c').trans hidentity, ?_⟩
            rw [hafter]
            exact hpassed
          · exact absurd ((hother c' heq).symm.trans hc') hnot
        · by_cases heq : c' = c
          · subst heq
            exact ⟨identity, (hkept c').trans hidentity,
              List.since_concat.mpr (Or.inl ⟨⟨i, gates, (), ho⟩, hpassed⟩)⟩
          · obtain ⟨identity', hid, hsince⟩ := h c' ((hother c' heq).symm.trans hc')
            exact ⟨identity', (hkept c').trans hid, since_keep hsince fun hch => hch (hkept c')⟩
      · exact held_setStage hafter hstage h

/-- In a run in which no evaluation is overtaken, a capability becomes promoted only with
all gates passed for its identity; and a promoted one has been promoted for the identity
it has, which has not changed since. -/
theorem promotion_sound (H : Host) (sched : List (Sched Op))
    (hundisturbed : ∀ e ∈ Machine.trace (step H) sched (Pool.idle .empty), Undisturbed e) :
    (∀ e ∈ Machine.trace (step H) sched (Pool.idle .empty), Earned e)
      ∧ Held (Machine.trace (step H) sched (Pool.idle .empty))
        (Machine.exec (step H) sched (Pool.idle .empty)).shared := by
  have hrun := Machine.history_invariant (step H) (C := Undisturbed)
    (I := fun past p => AllOutlined p ∧ (∀ e ∈ past, Earned e) ∧ Held past p.shared)
    (Pool.idle .empty) ⟨Pool.allSat_idle _ _, fun _ he => (by cases he), fun _ hc => (by cases hc)⟩
    (fun past e hv hc hI => ?_) sched hundisturbed
  · exact hrun.2
  · obtain ⟨hsat, hearned, hheld⟩ := hI
    obtain ⟨hmoves, hsat⟩ := moves_step hv hsat
    obtain ⟨hnew, hheld⟩ := held_step hmoves hc hheld
    refine ⟨hsat, fun e' he' => ?_, hheld⟩
    rcases List.mem_append.mp he' with he' | he'
    · exact hearned e' he'
    · rw [List.mem_singleton.mp he']
      exact hnew

theorem earned_last {sched : List (Sched Op)} {i : Sched Op} {p : Procs}
    (h : ∀ e ∈ Machine.trace (step H) (sched ++ [i]) p, Earned e) (c : Text)
    (hafter : (step H i (Machine.exec (step H) sched p)).2.shared.stage? c = some .promoted)
    (hbefore : (Machine.exec (step H) sched p).shared.stage? c ≠ some .promoted) :
    ∃ identity, (step H i (Machine.exec (step H) sched p)).2.shared.identity? c = some identity
      ∧ AllPassed (step H i (Machine.exec (step H) sched p)).2.shared c identity := by
  refine h (Machine.entry (step H) i (Machine.exec (step H) sched p)) ?_ c hafter hbefore
  rw [Machine.trace_concat]
  exact List.mem_append_right _ (List.mem_singleton_self _)

-- == a race

namespace Sample

def host : Host := Host.sample fun n => n

def service (source : String) : CapabilityCandidate :=
  ⟨py "search", py "search", py source, py "adapter", py "LOW", py "provider", py "schema",
    .dict []⟩

def alone (i : Nat) (op : Op) : List (Sched Op) :=
  .spawn i op :: List.replicate 5 (.advance i)

/-- The service is discovered, and all its gates are passed. -/
def tested : List (Sched Op) :=
  alone 0 (.discover (service "first"))
    ++ Gate.all.flatMap fun g => alone 0 (.recordGate (py "search") (py g.name) true (.dict []))

/-- An evaluation reads the service and its gates; then another source is discovered. -/
def overtaken : List (Sched Op) :=
  tested ++ [.spawn 1 (.evaluate (py "search")), .advance 1, .advance 1]
    ++ alone 0 (.discover (service "second"))

def search : Text := .lit "search"

end Sample

open Sample in
/-- The new source is promoted, and none of its gates has been passed. -/
theorem overtaken_promoted : ¬ ∀ (H : Host) (sched : List (Sched Op)),
    ∀ e ∈ Machine.trace (step H) sched (Pool.idle .empty), Earned e := by
  intro h
  have hnone : (((step host (.advance 1) (Machine.exec (step host) overtaken
        (Pool.idle .empty))).2.shared.identity? search).bind fun identity =>
      (step host (.advance 1) (Machine.exec (step host) overtaken
        (Pool.idle .empty))).2.shared.gates.find? (search, identity, .health200)).isNone
      = true := by decide +kernel
  obtain ⟨identity, hidentity, hpassed⟩ := @earned_last host overtaken (.advance 1)
    (Pool.idle .empty) (h host _) search (by decide +kernel) (by decide +kernel)
  obtain ⟨row, hrow, -⟩ := hpassed .health200
  rw [hidentity, Option.bind_some, hrow] at hnone
  cases hnone

def undisturbed (e : Step) : Bool :=
  match e.output with
  | .stepped _ (.write (.settle c identity gates .promoted)) _ =>
    decide (e.before.shared.identity? c = some identity)
      && decide (outcomes (e.before.shared.gatesOf c identity) = outcomes gates)
  | _ => true

theorem undisturbed_of_computed {e : Step} (h : undisturbed e = true) : Undisturbed e := by
  intro i c identity gates g ho
  unfold undisturbed at h
  rw [ho] at h
  simpa using h

open Sample in
/-- An evaluation that is not overtaken: the service is promoted, and has been for its
identity. -/
theorem promotion_sound_tested : ∃ identity, (Machine.exec (step host)
      (tested ++ alone 1 (.evaluate (py "search"))) (Pool.idle .empty)).shared.identity? search
      = some identity
    ∧ (Machine.trace (step host) (tested ++ alone 1 (.evaluate (py "search")))
      (Pool.idle .empty)).Since (Promotes search identity) (Changes search) := by
  have hall : (Machine.trace (step host) (tested ++ alone 1 (.evaluate (py "search")))
      (Pool.idle .empty)).all undisturbed = true := by decide +kernel
  exact (promotion_sound host (tested ++ alone 1 (.evaluate (py "search"))) fun e he =>
    undisturbed_of_computed (List.all_eq_true.mp hall e he)).2 search (by decide +kernel)

end Centinal26.Factory
