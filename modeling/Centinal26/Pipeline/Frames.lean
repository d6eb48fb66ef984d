/-
One engine alone on its store: what its methods leave as it was.
-/
import Centinal26.Lib.Ends
import Centinal26.Pipeline.Engine
import Centinal26.Pipeline.Steps

namespace Centinal26.Pipeline

open Py Centinal26.Core Steps

variable {H : Host} {me : Nat}

-- == frames

/-- Nothing is pending that is not on file. -/
def Calm (me : Nat) (d : Disk Db) : Prop :=
  d.OwnedBy me ∧ d.view me = d.file

def Files (w w' : World) : Prop :=
  ∀ path file, w.evidence.find? path = some file → w'.evidence.find? path = some file

/-- The same verified jobs, and the same canonical states but perhaps one. -/
structure Alike (key : Option Text) (a b : Db) : Prop where
  states : ∀ k, key ≠ some k → b.state? k = a.state? k
  verified : ∀ j row, row.state = .verified → (b.job? j = some row ↔ a.job? j = some row)

/-- What steps outside the database keep. -/
structure Beyond (w w' : World) : Prop where
  disk : w'.disk = w.disk
  files : Files w w'
  ticks : w.ticks ≤ w'.ticks

/-- What a method has kept. -/
structure Frame (me : Nat) (key : Option Text) (w w' : World) : Prop where
  calm : Calm me w'.disk
  alike : Alike key w.disk.file w'.disk.file
  files : Files w w'
  ticks : w.ticks ≤ w'.ticks

theorem Files.refl (w : World) : Files w w := fun _ _ h => h

variable {a b c w w' : World} {key : Option Text} {α : Type} {m : RBlock α}

theorem Files.trans (hab : Files a b) (hbc : Files b c) : Files a c :=
  fun path file h => hbc path file (hab path file h)

theorem Beyond.refl (w : World) : Beyond w w := ⟨rfl, .refl w, le_refl _⟩

theorem Beyond.trans (hab : Beyond a b) (hbc : Beyond b c) : Beyond a c :=
  ⟨hbc.disk.trans hab.disk, hab.files.trans hbc.files, le_trans hab.ticks hbc.ticks⟩

theorem Alike.refl (key : Option Text) (db : Db) : Alike key db db :=
  ⟨fun _ _ => rfl, fun _ _ _ => Iff.rfl⟩

theorem Alike.trans {a b c : Db} (hab : Alike key a b) (hbc : Alike key b c) : Alike key a c :=
  ⟨fun k hk => (hbc.states k hk).trans (hab.states k hk),
    fun j row hs => (hbc.verified j row hs).trans (hab.verified j row hs)⟩

theorem Alike.weaken {a b : Db} (h : Alike none a b) (key : Option Text) : Alike key a b :=
  ⟨fun k _ => h.states k nofun, h.verified⟩

theorem Frame.refl (h : Calm me w.disk) (key : Option Text) : Frame me key w w :=
  ⟨h, .refl _ _, .refl w, le_refl _⟩

theorem Frame.trans (hab : Frame me key a b) (hbc : Frame me key b c) : Frame me key a c :=
  ⟨hbc.calm, hab.alike.trans hbc.alike, hab.files.trans hbc.files, le_trans hab.ticks hbc.ticks⟩

theorem Frame.weaken (h : Frame me none w w') (key : Option Text) : Frame me key w w' :=
  ⟨h.calm, h.alike.weaken key, h.files, h.ticks⟩

theorem Beyond.frame (h : Beyond w w') (hc : Calm me w.disk)
    (key : Option Text) : Frame me key w w' := by
  refine ⟨?_, ?_, h.files, h.ticks⟩
  · rw [h.disk]
    exact hc
  · rw [h.disk]
    exact .refl _ _

theorem alike_updateJob {db : Db} {id : Text} {f : JobRow → JobRow}
    {hf : ∀ r, (f r).id = r.id} (key : Option Text)
    (hbefore : ∀ row, db.job? id = some row → row.state ≠ .verified)
    (hafter : ∀ row, (f row).state ≠ .verified) : Alike key db (db.updateJob id f hf) := by
  refine ⟨fun _ _ => rfl, fun j row hs => ?_⟩
  rw [Db.job?_updateJob]
  split
  · next hj =>
    subst hj
    constructor
    · intro h
      obtain ⟨r, _, rfl⟩ := Option.map_eq_some_iff.mp h
      exact absurd hs (hafter r)
    · intro h
      exact absurd hs (hbefore row h)
  · exact Iff.rfl

theorem requeueState_ne (attempts : Nat) (maxAttempts : Int) :
    requeueState attempts maxAttempts ≠ .verified := by
  unfold requeueState
  split
  · intro h
    cases h
  · intro h
    cases h

theorem calm_mk_none (db : Db) : Calm me ⟨db, none⟩ := ⟨rfl, rfl⟩

theorem calm_write_id {d : Disk Db} (h : Calm me d) : Calm me (d.write me id) := by
  refine ⟨Disk.ownedBy_write .., ?_⟩
  rw [Disk.view_write]
  exact h.2

-- == outside programs

/-- A program that does not touch the database. -/
def Outside {α : Type} (p : RProg α) : Prop :=
  ∀ w, p.Ends w (fun _ => Beyond w) fun _ => Beyond w

theorem Outside.block {l : Access}
    (h : ∀ w, Beyond w (m w).2) : Outside (Prog.block l m : RProg α) := by
  exact fun w => .block (.of_state (h w))

theorem beyond_tick (w : World) : Beyond w { w with ticks := w.ticks + 1 } :=
  ⟨rfl, .refl _, Nat.le_succ _⟩

theorem beyond_bind {β : Type} {f : α → RBlock β}
    (hm : ∀ w, Beyond w (m w).2) (hf : ∀ a w, Beyond w (f a w).2) (w : World) :
    Beyond w ((m >>= f) w).2 := by
  have hfirst := hm w
  rw [Block.bind_apply]
  split
  · next a w' heq =>
    rw [heq] at hfirst
    exact hfirst.trans (hf a w')
  · next e w' heq =>
    rw [heq] at hfirst
    exact hfirst

theorem outside_permits (grant : Grant) (capability : PyStr) :
    Outside (permits H grant capability) :=
  .block fun w => beyond_bind beyond_tick (fun _ w => Beyond.refl w) w

theorem outside_auditAppend (event : String) (payload : List (PyKey × PyVal)) :
    Outside (auditAppend H event payload) := by
  refine .block fun w => beyond_bind beyond_tick (fun now w => ?_) w
  unfold writeAudit
  split
  · exact ⟨rfl, .refl _, le_refl _⟩
  · exact .refl w

theorem readEvidence_beyond (path : EvidencePath) (w : World) :
    Beyond w (readEvidence path w).2 := by
  unfold readEvidence
  split
  · exact .refl w
  · exact .refl w

theorem outside_verifyEvidence (path : EvidencePath) : Outside (verifyEvidence H path) :=
  .block fun w => beyond_bind (readEvidence_beyond path) (fun _ w => Beyond.refl w) w

theorem outside_evidenceSha (path : EvidencePath) : Outside (evidenceSha path) :=
  .block fun w => beyond_bind (readEvidence_beyond path) (fun _ w => Beyond.refl w) w

theorem replaceEvidence_ends {file : EvidenceFile} (hfree : w.evidence.find? file.path = none) :
    (replaceEvidence file).Ends w (fun _ => Beyond w) fun _ _ => False := by
  cases hins : w.evidence.insert? file with
  | none =>
    obtain ⟨old, hold⟩ := Table.exists_of_insert_none hins
    rw [hfree] at hold
    cases hold
  | some evidence =>
    have hrun : replaceEvidence file w = (.ok (), { w with evidence }) := by
      simp only [replaceEvidence, hins]
    constructor
    rw [hrun]
    refine ⟨rfl, fun path old hold => ?_, le_refl _⟩
    rw [Table.find?_insert hins]
    split
    · next hp =>
      rw [hp, hfree] at hold
      cases hold
    · exact hold

theorem writeEvidence_ends (jobId : Text) (attempt : Nat)
    (kind : EvidenceKind) (payload : List (PyKey × PyVal)) (w : World) :
    (writeEvidence H jobId attempt kind payload).Ends w
      (fun path w' => path = ⟨jobId, attempt, kind⟩ ∧ Beyond w w')
      fun _ => Beyond w := by
  let path : EvidencePath := ⟨jobId, attempt, kind⟩
  have hprepare : (prepareEvidence H path payload).Ends w
      (fun _ w' => Beyond w w' ∧ w'.evidence.find? path = none)
      fun _ => Beyond w := by
    unfold prepareEvidence
    constructor
    rw [readClock_bind]
    cases evidenceDocument H path.jobId path.attempt payload (H.clock w.ticks) with
    | error e =>
      rw [liftPy_error_bind]
      exact beyond_tick w
    | ok document =>
      rw [liftPy_ok_bind, Block.bind_apply]
      unfold checkAbsent
      cases hfind : w.evidence.find? path with
      | some old => exact beyond_tick w
      | none => exact ⟨beyond_tick w, hfind⟩
  unfold writeEvidence
  refine (Prog.Ends.block hprepare).bind fun document w₁ h₁ => ?_
  obtain ⟨hw₁, hfree⟩ := h₁
  have hreplace : (Prog.block Access.outside
      (replaceEvidence ⟨path, document⟩)).Ends w₁ (fun _ => Beyond w₁)
      fun _ _ => False := .block (replaceEvidence_ends hfree)
  refine (hreplace.imp (fun _ _ h => hw₁.trans h) fun _ _ h => h.elim).bind fun _ w' h' => ?_
  exact Prog.Ends.ret ⟨rfl, h'⟩

-- == database programs

section Calm

variable {w : World}

variable {f : Db → Db} {w₁ : World} {id : Text} {α : Type} {db : Db} {row : JobRow}

theorem committed_ends {d : Disk Db} (hw₁ : w₁.disk = d.write me f) :
    (committed me).Ends w₁ (fun _ w' => w' = { w₁ with disk := ⟨f (d.view me), none⟩ })
      fun _ _ => False := by
  refine .block ⟨?_⟩
  show { w₁ with disk := w₁.disk.commit me } = { w₁ with disk := ⟨f (d.view me), none⟩ }
  rw [hw₁, Disk.commit_write]

theorem finish_ends (hc : Calm me w.disk) (id : Text) (state : JobState)
    (result : PyVal) (evidence : Option EvidencePath) :
    (finish H me id state result evidence).Ends w (fun _ w' => ∃ r stamp, w' = { w with
        disk := ⟨w.disk.file.updateJob id
          (finishColumns state r evidence stamp) (fun _ => rfl), none⟩
        ticks := w.ticks + 1 })
      fun _ w' => w' = w := by
  unfold finish
  have hrow : (finishRow H me id state result evidence).Ends w
      (fun _ w₁ => ∃ r stamp, w₁ = { w with
        disk := w.disk.write me fun db => db.updateJob id
          (finishColumns state r evidence stamp) (fun _ => rfl)
        ticks := w.ticks + 1 })
      fun _ w' => w' = w := by
    unfold finishRow
    constructor
    cases roundTrip result with
    | error e =>
      rw [liftPy_error_bind]
    | ok r =>
      rw [liftPy_ok_bind, readClock_bind]
      have ho : ({ w with ticks := w.ticks + 1 } : World).disk.lockedFor me = false := hc.1
      simp only [execute, ho, Bool.false_eq_true, if_false]
      exact ⟨r, _, rfl⟩
  refine (Prog.Ends.block hrow).bind fun _ w₁ h₁ => ?_
  obtain ⟨r, stamp, rfl⟩ := h₁
  refine (committed_ends (d := w.disk) (f := fun db => db.updateJob id
    (finishColumns state r evidence stamp) (fun _ => rfl)) rfl).imp
    (fun _ w' h' => ?_) fun _ _ h' => h'.elim
  refine ⟨r, stamp, ?_⟩
  rw [h', hc.2]

theorem finish_frame (hc : Calm me w.disk) {state : JobState}
    (hs : state ≠ .verified) (result : PyVal) (evidence : Option EvidencePath)
    (hjob : ∀ row, w.disk.file.job? id = some row → row.state ≠ .verified) :
    (finish H me id state result evidence).Ends w
      (fun _ => Frame me none w) fun _ => Frame me none w := by
  refine (finish_ends hc id state result evidence).imp ?_ ?_
  · rintro _ w' ⟨r, stamp, rfl⟩
    exact ⟨calm_mk_none _, alike_updateJob none hjob fun _ => hs, .refl _, Nat.le_succ _⟩
  · rintro _ w' rfl
    exact .refl hc none

theorem select_ends (hc : Calm me w.disk) (query : Db → α) :
    (Prog.block .read (select me query) : RProg α).Ends w
      (fun a w' => a = query w.disk.file ∧ w' = w) fun _ _ => False := by
  refine .block ⟨?_⟩
  show query (w.disk.view me) = query w.disk.file ∧ w = w
  rw [hc.2]
  exact ⟨rfl, rfl⟩

theorem retry_frame (hc : Calm me w.disk) (result : PyVal) (evidence : EvidencePath)
    (hjob : ∀ row, w.disk.file.job? id = some row → row.state ≠ .verified) :
    (retry H me id result evidence).Ends w (fun _ => Frame me none w) fun _ => Frame me none w := by
  unfold retry
  refine ((select_ends hc _).imp (fun _ _ h => h) fun _ _ h => h.elim).bind fun found w₁ h₁ => ?_
  obtain ⟨_, rfl⟩ := h₁
  cases found with
  | none => exact Prog.Ends.raise (.refl hc none)
  | some row =>
    refine (finish_frame hc (requeueState_ne _ _) result _ hjob).bind fun _ w₂ h₂ => ?_
    exact Prog.Ends.ret h₂

theorem publish_frame (hb : Beyond w w₁) (hc : Calm me w.disk)
    {key : Option Text} (hf : Alike key w.disk.file (f w.disk.file)) :
    (committed me).Ends { w₁ with disk := w₁.disk.write me f }
      (fun _ => Frame me key w) fun _ => Frame me key w := by
  refine (committed_ends (d := w₁.disk) (f := f) rfl).imp ?_ ?_
  · rintro _ w' rfl
    refine ⟨calm_mk_none _, ?_, hb.files, hb.ticks⟩
    show Alike key w.disk.file (f (w₁.disk.view me))
    rw [hb.disk, hc.2]
    exact hf
  · rintro _ _ h
    exact h.elim

theorem record_frame (hc : Calm me w.disk)
    (verified evidence recovery independent diverged : Bool) :
    (record H me verified evidence recovery independent diverged).Ends w
      (fun _ => Frame me none w) fun _ => Frame me none w := by
  let row : RunRow := ⟨H.uuid4 w.draws, verified, evidence, diverged, recovery,
    independent, H.clock w.ticks⟩
  let w₁ : World := { w with ticks := w.ticks + 1, draws := w.draws + 1 }
  have hb : Beyond w w₁ := ⟨rfl, .refl _, Nat.le_succ _⟩
  unfold record
  have hinsert : (insertRun me row).Ends w₁ (fun _ w₂ => ∃ db, Alike none w.disk.file db
        ∧ w₂ = { w₁ with disk := w₁.disk.write me fun _ => db })
      fun _ => Frame me none w := by
    have ho : w₁.disk.lockedFor me = false := hc.1
    unfold insertRun
    constructor
    rw [select_bind]
    cases hi : (w₁.view me).insertRun? row with
    | none =>
      simp only [execute_bind ho]
      exact ⟨calm_write_id hc, .refl _ _, .refl _, Nat.le_succ _⟩
    | some db =>
      simp only [execute, ho, Bool.false_eq_true, if_false]
      have hview : w₁.view me = w.disk.file := hc.2
      rw [hview] at hi
      obtain ⟨hjobs, hstates⟩ := Db.insertRun?_spec hi
      refine ⟨db, ⟨fun k _ => hstates k, fun j r _ => ?_⟩, rfl⟩
      rw [hjobs j]
  refine (Prog.Ends.block ?_ : Prog.Ends _ w (fun _ w₂ => ∃ db, Alike none w.disk.file db
        ∧ w₂ = { w₁ with disk := w₁.disk.write me fun _ => db })
      fun _ => Frame me none w).bind fun _ w₂ h₂ => ?_
  · exact ⟨hinsert.run⟩
  · obtain ⟨db, halike, rfl⟩ := h₂
    exact publish_frame hb hc halike

theorem getState_ends (hc : Calm me w.disk) (key : PyStr) : (getState me key).Ends w
      (fun found w' => w' = w ∧ ∃ k, encode key = .ok k
        ∧ found = (w.disk.file.state? k).map StateRow.value)
      fun _ w' => w' = w := by
  unfold getState
  refine Prog.Ends.block ?_
  constructor
  cases hk : encode key with
  | error e => rw [liftPy_error_bind]
  | ok k =>
    rw [liftPy_ok_bind]
    refine ⟨rfl, k, rfl, ?_⟩
    rw [World.view, hc.2]

theorem alike_upsertState (db : Db) (row : StateRow) :
    Alike (some row.key) db (db.upsertState row) := by
  refine ⟨fun k hk => ?_, fun j r _ => ?_⟩
  · rw [Db.state?_upsertState]
    split
    · next h => exact absurd (h ▸ rfl) hk
    · rfl
  · rw [Db.job?_upsertState]

/-- A state that has been set reads back as its round trip. -/
structure StateSet (me : Nat) (k : Text) (value : PyVal) (w w' : World) : Prop where
  frame : Frame me (some k) w w'
  jobs : ∀ j, w'.disk.file.job? j = w.disk.file.job? j
  value : ∃ v, roundTrip value = .ok v ∧ (w'.disk.file.state? k).map StateRow.value = some v

theorem setState_ends (hc : Calm me w.disk) (key : PyStr) (value : PyVal) :
    (setState H me key value).Ends w
      (fun _ w' => ∃ k, encode key = .ok k ∧ StateSet me k value w w')
      fun _ w' => w' = w := by
  unfold setState
  have hread : (Prog.block .read (do
        let k ← liftPy (encode key)
        let version ← select me fun db => db.version k + 1
        pure (k, version)) : RProg (Text × Nat)).Ends w
      (fun found w' => w' = w ∧ encode key = .ok found.1)
      fun _ w' => w' = w := by
    refine Prog.Ends.block ?_
    constructor
    cases hk : encode key with
    | error e => rw [liftPy_error_bind]
    | ok k =>
      rw [liftPy_ok_bind]
      exact ⟨rfl, rfl⟩
  refine hread.bind fun found w₁ h₁ => ?_
  obtain ⟨rfl, hk⟩ := h₁
  obtain ⟨k, version⟩ := found
  have hrow : (stateRow H me k value version).Ends w₁
      (fun _ w₂ => ∃ v, roundTrip value = .ok v ∧ w₂ = { w₁ with
        disk := w₁.disk.write me fun db =>
          db.upsertState ⟨k, v, version, H.clock w₁.ticks⟩
        ticks := w₁.ticks + 1 })
      fun _ w' => w' = w₁ := by
    unfold stateRow
    constructor
    cases roundTrip value with
    | error e => rw [liftPy_error_bind]
    | ok v =>
      rw [liftPy_ok_bind, readClock_bind]
      have ho : ({ w₁ with ticks := w₁.ticks + 1 } : World).disk.lockedFor me = false := hc.1
      simp only [execute, ho, Bool.false_eq_true, if_false]
      exact ⟨v, rfl, rfl⟩
  refine (Prog.Ends.block hrow).bind fun _ w₂ h₂ => ?_
  obtain ⟨v, hv, rfl⟩ := h₂
  let row : StateRow := ⟨k, v, version, H.clock w₁.ticks⟩
  refine Prog.Ends.bind (Q := fun _ w' => StateSet me k value w₁ w') ?_
    fun _ w' h' => Prog.Ends.ret ⟨k, hk, h'⟩
  refine (committed_ends (d := w₁.disk) (f := fun db => db.upsertState row)
    rfl).imp ?_ fun _ _ h => h.elim
  rintro _ w' rfl
  rw [hc.2]
  refine ⟨⟨calm_mk_none _, alike_upsertState _ row, .refl _, Nat.le_succ _⟩,
    fun j => Db.job?_upsertState .., v, hv, ?_⟩
  rw [Db.state?_upsertState, if_pos rfl]
  rfl

-- == claims

theorem recoverRows_ends (stamp : Instant) (rows : List JobRow) : ∀ w : World, w.disk.OwnedBy me →
      (∀ r ∈ rows, ∀ row, (w.view me).job? r.id = some row → row.state ≠ .verified) →
      (recoverRows me stamp rows).Ends w
        (fun _ w' => w'.disk.OwnedBy me ∧ w'.disk.file = w.disk.file
          ∧ Alike none (w.view me) (w'.view me) ∧ w'.evidence = w.evidence
          ∧ w'.ticks = w.ticks)
        fun _ _ => False := by
  induction rows with
  | nil => exact fun w ho _ => ⟨ho, rfl, .refl _ _, rfl, rfl⟩
  | cons r rest ih =>
    intro w ho hrows
    let update : Db → Db := fun db => db.updateJob r.id
      (recoverColumns (requeueState r.attempts r.maxAttempts) stamp)
      fun _ => rfl
    let w₁ : World := { w with disk := w.disk.write me update }
    have hview : w₁.view me = update (w.view me) := Disk.view_write ..
    have halike : Alike none (w.view me) (w₁.view me) := by
      rw [hview]
      exact alike_updateJob none (hrows r (List.mem_cons_self ..)) fun _ => requeueState_ne _ _
    have hrest : ∀ r' ∈ rest, ∀ row, (w₁.view me).job? r'.id = some row →
        row.state ≠ .verified := by
      intro r' hr' row hrow hs
      exact hrows r' (List.mem_cons_of_mem _ hr') row ((halike.verified _ row hs).mp hrow) hs
    have hexec : (execute me update).Ends w (fun _ w' => w' = w₁) fun _ _ => False := by
      unfold execute
      constructor
      rw [ho]
      rfl
    refine (Prog.Ends.block hexec).bind fun _ w' h' => ?_
    subst h'
    refine (ih w₁ (Disk.ownedBy_write ..) hrest).imp ?_ fun _ _ h => h
    rintro _ w₂ ⟨ho₂, hfile, halike₂, hev, hticks⟩
    exact ⟨ho₂, hfile, halike.trans halike₂, hev, hticks⟩

theorem recover_frame (hc : Calm me w.disk) :
    (recover H me).Ends w (fun _ => Frame me none w) fun _ _ => False := by
  unfold recover
  refine Prog.Ends.bind (Q := fun picked w₁ =>
      w₁ = { w with ticks := w.ticks + 1 }
        ∧ ∀ r ∈ picked.2, r ∈ w.disk.file.jobs.rows ∧ r.state = .running)
    (Prog.Ends.block ?_) fun picked w₁ h₁ => ?_
  · refine ⟨rfl, fun r hr => ?_⟩
    obtain ⟨hmem, hl⟩ := List.mem_filter.mp hr
    have hview : w.disk.view me = w.disk.file := hc.2
    rw [World.view, hview] at hmem
    simp only [JobRow.lapsed, Bool.and_eq_true, decide_eq_true_eq] at hl
    exact ⟨hmem, hl.1⟩
  · obtain ⟨rfl, hrows⟩ := h₁
    obtain ⟨stamp, rows⟩ := picked
    have hloop := @recoverRows_ends me stamp rows
      { w with ticks := w.ticks + 1 } hc.1 fun r hr row hrow => by
        obtain ⟨hmem, hs⟩ := hrows r hr
        have hview : w.disk.view me = w.disk.file := hc.2
        rw [World.view, hview] at hrow
        have hfound : w.disk.file.job? r.id = some r := Table.find?_of_mem hmem
        rw [hfound] at hrow
        cases hrow
        rw [hs]
        intro h
        cases h
    refine (hloop.imp (fun _ _ h => h) fun _ _ h => h).bind fun _ w₂ h₂ => ?_
    obtain ⟨ho₂, _, halike, hev, hticks⟩ := h₂
    refine Prog.Ends.bind (Q := fun _ => Frame me none w) ?_ fun _ w' h' => Prog.Ends.ret h'
    refine .block ⟨?_⟩
    show Frame me none w { w₂ with disk := w₂.disk.commit me }
    rw [Disk.commit_eq ho₂]
    refine ⟨calm_mk_none _, ?_, ?_, ?_⟩
    · have hview : w.disk.view me = w.disk.file := hc.2
      show Alike none w.disk.file (w₂.view me)
      rw [← hview]
      exact halike
    · intro path file hfile
      exact hev ▸ hfile
    · show w.ticks ≤ w₂.ticks
      rw [hticks]
      exact Nat.le_succ _

theorem alike_claimed (hq : db.nextQueued = some row)
    (lease stamp : Instant) : Alike none db (claimed row lease stamp db) := by
  refine ⟨fun _ _ => rfl, fun j r hs => ?_⟩
  obtain ⟨hrow, hqueued⟩ := Db.nextQueued_spec hq
  rw [job?_claimed hq]
  split
  · next hj =>
    subst hj
    rw [hrow]
    constructor
    · intro h
      cases h
      cases hs
    · intro h
      cases h
      rw [hqueued] at hs
      cases hs
  · exact Iff.rfl

theorem claimRow_ends (hc : Calm me w.disk) (leaseSeconds : Int) :
    (claimRow H me leaseSeconds).Ends w
      (fun picked w' => Frame me none w w' ∧ ∀ id, picked = some id →
        ∃ row, w'.disk.file.job? id = some row ∧ row.state = .running)
      fun _ => Frame me none w := by
  unfold claimRow
  constructor
  rw [Block.bind_apply]
  cases htx : w.disk.tx with
  | some t =>
    simp only [beginImmediate, htx]
    exact .refl hc none
  | none =>
    have hview : w.disk.view me = w.disk.file := hc.2
    have hbegun : (w.disk.write me id).OwnedBy me := Disk.ownedBy_write ..
    simp only [beginImmediate, htx]
    rw [select_bind]
    simp only [World.view, Disk.view_write, hview, id]
    cases hq : w.disk.file.nextQueued with
    | none =>
      show Frame me none w { w with disk := (w.disk.write me id).commit me } ∧ _
      rw [Disk.commit_write, hview]
      exact ⟨⟨calm_mk_none _, .refl _ _, .refl _, le_refl _⟩, fun _ h => by cases h⟩
    | some row =>
      simp only [readClock_bind]
      cases hlease : addSeconds (H.clock w.ticks) leaseSeconds with
      | error e =>
        exact ⟨calm_write_id hc, .refl _ _, .refl _, Nat.le_succ _⟩
      | ok lease =>
        simp only [liftPy_ok_bind, readClock_bind, select_bind]
        rw [execute_bind hbegun, commit_bind]
        let stamp := H.clock (w.ticks + 1)
        let w' : World := { w with
          disk := ((w.disk.write me id).write me (claimed row lease stamp)).commit me
          ticks := w.ticks + 2 }
        have hdisk : w'.disk = ⟨claimed row lease stamp w.disk.file, none⟩ := by
          show ((w.disk.write me id).write me _).commit me = _
          rw [Disk.write_write, Disk.commit_write, hview]
          rfl
        have hframe : Frame me none w w' := by
          refine ⟨?_, ?_, .refl _, Nat.le_add_right _ 2⟩
          · rw [hdisk]
            exact calm_mk_none _
          · rw [hdisk]
            exact alike_claimed hq lease stamp
        have hjob : w'.disk.file.job? row.id = some { row with
            state := .running
            attempts := row.attempts + 1
            leaseUntil := some lease
            updatedAt := stamp } := by
          rw [hdisk]
          show (claimed row lease stamp w.disk.file).job? row.id = _
          rw [job?_claimed hq, if_pos rfl]
        split
        · next heq =>
          split at heq
          · cases heq
            exact ⟨hframe, fun _ h => by cases h⟩
          · cases heq
            refine ⟨hframe, fun id h => ?_⟩
            cases h
            exact ⟨_, hjob, rfl⟩
        · next heq =>
          split at heq
          · cases heq
          · cases heq

theorem claim_ends (hc : Calm me w.disk) (leaseSeconds : Int) : (claim H me leaseSeconds).Ends w
      (fun picked w' => Frame me none w w' ∧ ∀ row, picked = some row →
        w'.disk.file.job? row.id = some row ∧ row.state = .running)
      fun _ => Frame me none w := by
  unfold claim
  split
  · exact Prog.Ends.raise (.refl hc none)
  · refine ((recover_frame hc).imp (fun _ _ h => h) fun _ _ h => h.elim).bind fun _ w₁ h₁ => ?_
    refine ((Prog.Ends.block (claimRow_ends h₁.calm leaseSeconds)).imp
      (fun picked w₂ h => ?_) fun _ w₂ h => h₁.trans h).bind
        (Q := fun picked w₂ => Frame me none w w₂ ∧ ∀ id, picked = some id →
          ∃ row, w₂.disk.file.job? id = some row ∧ row.state = .running)
        fun picked w₂ h₂ => ?_
    · exact ⟨h₁.trans h.1, h.2⟩
    · obtain ⟨hframe, hpicked⟩ := h₂
      cases picked with
      | none => exact Prog.Ends.ret ⟨hframe, fun _ h => by cases h⟩
      | some id =>
        obtain ⟨row, hrow, hs⟩ := hpicked id rfl
        refine (select_ends hframe.calm _).imp ?_ fun _ _ h => h.elim
        rintro found w' ⟨rfl, rfl⟩
        refine ⟨hframe, fun row' hrow' => ?_⟩
        rw [hrow] at hrow'
        cases hrow'
        rw [Db.id_of_job? hrow]
        exact ⟨hrow, hs⟩

-- == submits

theorem alike_insertJob {db' : Db}
    (hs : row.state ≠ .verified) (h : db.insertJob? row = some db') : Alike none db db' := by
  obtain ⟨hnone, hstates, hjobs⟩ := Db.insertJob?_spec h
  refine ⟨fun k _ => hstates k, fun j r hr => ?_⟩
  rw [hjobs j]
  split
  · next hj =>
    subst hj
    rw [hnone]
    constructor
    · intro heq
      cases heq
      exact absurd hr hs
    · intro heq
      cases heq
  · exact Iff.rfl

theorem insertRow_frame (hc : Calm me w.disk) (hs : row.state ≠ .verified) :
    (insertRow me row).Ends w (fun _ => Frame me none w) fun _ => Frame me none w := by
  have hview : w.view me = w.disk.file := hc.2
  unfold insertRow
  constructor
  rw [select_bind, hview]
  cases hi : w.disk.file.insertJob? row with
  | none =>
    simp only [execute_bind hc.1, rollback_bind]
    show Frame me none w { w with disk := (w.disk.write me id).rollback me }
    rw [Disk.rollback_eq (Disk.ownedBy_write ..)]
    exact ⟨calm_mk_none _, .refl _ _, .refl _, le_refl _⟩
  | some db =>
    simp only [execute_bind hc.1, commit_bind]
    show Frame me none w { w with disk := (w.disk.write me fun _ => db).commit me }
    rw [Disk.commit_write]
    exact ⟨calm_mk_none _, alike_insertJob hs hi, .refl _, le_refl _⟩

theorem beyond_then {β : Type} {m : RBlock α} {f : α → RBlock β}
    (hm : ∀ w, Beyond w (m w).2) (hc : Calm me w.disk) (hf : ∀ a w', Calm me w'.disk →
      (f a).Ends w' (fun _ => Frame me none w') fun _ => Frame me none w') :
    (m >>= f).Ends w (fun _ => Frame me none w) fun _ => Frame me none w := by
  refine Block.Ends.bind (Q := fun _ w' => Frame me none w w')
    ((Block.Ends.of_state (hm w)).imp (fun _ _ hb => hb.frame hc none)
      fun _ _ hb => hb.frame hc none) fun a w' hframe => ?_
  exact (hf a w' hframe.calm).imp (fun _ _ h => hframe.trans h) fun _ _ h => hframe.trans h

theorem submitRow_frame (hc : Calm me w.disk) (intent : Intent) (grant : Grant)
    (key : PyStr) (maxAttempts : Int) : (submitRow H me intent grant key maxAttempts).Ends w
      (fun _ => Frame me none w) fun _ => Frame me none w := by
  have hdraw : ∀ w, Beyond w (drawUuid H w).2 :=
    fun w => ⟨rfl, .refl _, le_refl _⟩
  refine beyond_then hdraw hc fun id w hc => ?_
  refine beyond_then beyond_tick hc fun stamp w hc => ?_
  refine beyond_then Beyond.refl hc fun stored w hc => ?_
  refine beyond_then Beyond.refl hc fun sha w hc => ?_
  refine beyond_then Beyond.refl hc fun key w hc => ?_
  refine beyond_then Beyond.refl hc fun capability w hc => ?_
  split
  · exact insertRow_frame hc (by intro h; cases h)
  · exact .throw (.refl hc none)

theorem submit_frame (hc : Calm me w.disk) (intent : Intent) (grant : Grant)
    (key : PyStr) (maxAttempts : Int) : (submit H me intent grant key maxAttempts).Ends w
      (fun _ => Frame me none w) fun _ => Frame me none w := by
  unfold submit
  split
  · exact Prog.Ends.raise (.refl hc none)
  · refine Prog.Ends.bind (Prog.Ends.block (submitRow_frame hc _ _ _ _)) fun inserted w₁ h₁ => ?_
    cases inserted with
    | some id => exact Prog.Ends.ret h₁
    | none =>
      have hbefore : ∀ w, Beyond w (submittedBefore H me intent key w).2 := by
        refine beyond_bind Beyond.refl fun found w => ?_
        cases found with
        | none => exact .refl w
        | some row =>
          refine beyond_bind Beyond.refl (fun sha w => ?_) w
          refine beyond_bind Beyond.refl (fun existing w => ?_) w
          split
          · exact .refl w
          · exact .refl w
      refine (Outside.block (l := Access.read) hbefore w₁).imp ?_ ?_
      · exact fun _ _ hb => h₁.trans (hb.frame h₁.calm none)
      · exact fun _ _ hb => h₁.trans (hb.frame h₁.calm none)

end Calm

-- == sequences

/-- However the program ends, its frame has been kept. -/
def Framed {α : Type} (me : Nat) (key : Option Text) (p : RProg α) (w : World) : Prop :=
  p.Ends w (fun _ => Frame me key w) fun _ => Frame me key w

variable {α : Type} {key : Option Text} {p : RProg α}

theorem Framed.bind {β : Type} {f : α → RProg β} {w : World} (hp : Framed me key p w)
    (hf : ∀ a w', Frame me key w w' → Framed me key (f a) w') : Framed me key (p >>= f) w := by
  refine Prog.Ends.bind hp fun a w' h => ?_
  exact (hf a w' h).imp (fun _ _ h' => h.trans h') fun _ _ h' => h.trans h'

theorem Framed.ret {w : World} (hc : Calm me w.disk) (a : α) : Framed me key (pure a : RProg α) w :=
  Prog.Ends.ret (.refl hc key)

theorem Framed.raise {w : World}
    (hc : Calm me w.disk) (e : EngineError) : Framed me key (Prog.raise e : RProg α) w :=
  Prog.Ends.raise (.refl hc key)

theorem Outside.framed {w : World} (h : Outside p)
    (hc : Calm me w.disk) (key : Option Text) : Framed me key p w :=
  (h w).imp (fun _ _ hb => hb.frame hc key) fun _ _ hb => hb.frame hc key

end Centinal26.Pipeline

/-
The exits of `run_once` that do not verify their job.

Each ends the job in some other state and keeps the frame: the verified jobs,
the canonical states, and the evidence. All an exit needs is that its job is
not verified already (`Unverified`), which every frame keeps; so an exit that
raises half way may be followed by another.
-/

namespace Centinal26.Pipeline

open Py Centinal26.Core Steps

variable {H : Host} {E : AutomatedEngine} {w : World} {row : JobRow}

/-- The engine is at rest, and the job is not verified. -/
structure Unverified (me : Nat) (id : Text) (w : World) : Prop where
  calm : Calm me w.disk
  job : ∀ r, w.disk.file.job? id = some r → r.state ≠ .verified

variable {id : Text} {key : Option Text} {α : Type}

theorem Unverified.frame {me : Nat}
    {w' : World} (h : Unverified me id w) (hf : Frame me key w w') : Unverified me id w' := by
  refine ⟨hf.calm, fun r hr hs => ?_⟩
  exact h.job r ((hf.alike.verified id r hs).mp hr) hs

theorem Unverified.outside {β : Type} {me : Nat} {p : RProg α}
    {f : α → RProg β} (h : Unverified me id w) (hp : Outside p)
    (hf : ∀ a w', Unverified me id w' → Framed me none (f a) w') : Framed me none (p >>= f) w :=
  (hp.framed h.calm none).bind fun a w' hframe => hf a w' (h.frame hframe)

theorem outside_writeEvidence (jobId : Text) (attempt : Nat)
    (kind : EvidenceKind) (payload : List (PyKey × PyVal)) :
    Outside (writeEvidence H jobId attempt kind payload) :=
  fun w => (writeEvidence_ends jobId attempt kind payload w).imp (fun _ _ h => h.2) fun _ _ h => h

theorem finished_framed (h : Unverified E.me row.id w) {state : JobState}
    (hs : state ≠ .verified) (result : PyVal) (evidence : Option EvidencePath) :
    Framed E.me none (finish H E.me row.id state result evidence) w :=
  finish_frame h.calm hs result evidence h.job

/-- How an exit closes: the audit line, the evidence checked, the run
recorded. -/
theorem closing_framed {w : World}
    (hc : Calm E.me w.disk) (event : String) (payload : List (PyKey × PyVal)) {f : Unit → RProg α}
    (hf : ∀ w', Calm E.me w'.disk → Framed E.me key (f ()) w') :
    Framed E.me key (auditAppend H event payload >>= f) w :=
  ((outside_auditAppend event payload).framed hc key).bind fun _ w' h => hf w' h.calm

theorem recorded_framed {w : World} (hc : Calm E.me w.disk)
    (verified evidence recovery independent diverged : Bool) (a : α) :
    Framed E.me none (record H E.me verified evidence recovery independent
      diverged >>= fun _ => pure a) w :=
  Framed.bind (record_frame hc _ _ _ _ _) fun _ _ h => .ret h.calm a

theorem recordFailure_framed (h : Unverified E.me row.id w) (spec : CapabilitySpec)
    (result : List (PyKey × PyVal)) (recoveryTest : Bool) :
    Framed E.me none (recordFailure H E row spec result recoveryTest) w := by
  unfold recordFailure
  refine h.outside (outside_writeEvidence _ _ _ _) fun path w h => ?_
  refine Framed.bind (retry_frame h.calm _ path h.job) fun state w hw => ?_
  refine closing_framed hw.calm _ _ fun w hc => ?_
  refine ((outside_verifyEvidence path).framed hc none).bind fun complete w hw => ?_
  exact recorded_framed hw.calm _ _ _ _ _ _

theorem reject_framed (h : Unverified E.me row.id w) (recoveryTest : Bool) :
    Framed E.me none (reject H E row recoveryTest) w := by
  unfold reject
  refine h.outside (outside_writeEvidence _ _ _ _) fun path w h => ?_
  refine Framed.bind (finished_framed h (by intro h; cases h) _ _) fun _ w hw => ?_
  refine closing_framed hw.calm _ _ fun w hc => ?_
  refine ((outside_verifyEvidence path).framed hc none).bind fun complete w hw => ?_
  exact recorded_framed hw.calm _ _ _ _ _ _

theorem failVerification_framed (h : Unverified E.me row.id w)
    (spec : CapabilitySpec) (verified complete : Bool)
    (error : Option (PyStr × PyStr)) (path : EvidencePath) (recoveryTest : Bool) :
    Framed E.me none (failVerification H E row spec verified complete error
      path recoveryTest) w := by
  unfold failVerification
  refine Framed.bind (finished_framed h (by intro h; cases h) _ _) fun _ w hw => ?_
  refine closing_framed hw.calm _ _ fun w hc => ?_
  exact recorded_framed hc _ _ _ _ _ _

theorem divergeState_framed (h : Unverified E.me row.id w) (spec : CapabilitySpec)
    (path : EvidencePath) (updated observed : PyVal) (recoveryTest : Bool) :
    Framed E.me none (divergeState H E row spec path updated observed recoveryTest) w := by
  unfold divergeState
  refine h.outside (outside_writeEvidence _ _ _ _) fun path w h => ?_
  refine Framed.bind (finished_framed h (by intro h; cases h) _ _) fun _ w hw => ?_
  refine closing_framed hw.calm _ _ fun w hc => ?_
  refine ((outside_verifyEvidence path).framed hc none).bind fun complete w hw => ?_
  exact record_frame hw.calm _ _ _ _ _

theorem failStateUpdate_framed (h : Unverified E.me row.id w) (spec : CapabilitySpec)
    (path : EvidencePath) (message : PyStr) (recoveryTest : Bool) :
    Framed E.me none (failStateUpdate H E row spec path message recoveryTest) w := by
  unfold failStateUpdate
  refine h.outside (outside_writeEvidence _ _ _ _) fun path w h => ?_
  refine Framed.bind (finished_framed h (by intro h; cases h) _ _) fun _ w hw => ?_
  refine closing_framed hw.calm _ _ fun w hc => ?_
  refine ((outside_verifyEvidence path).framed hc none).bind fun complete w hw => ?_
  exact record_frame hw.calm _ _ _ _ _

end Centinal26.Pipeline
