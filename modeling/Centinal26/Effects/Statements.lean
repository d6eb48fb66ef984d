/-
What the ledger's statements do to the world, one equation each: the layer
above reads these and never unfolds a statement again.
-/
import Centinal26.Effects.Ledger

namespace Centinal26.Effects

open Py Steps

variable {H : Host} {me : Nat}

-- == the history row

/-- The document of a history record: its members in key order. -/
def HistoryRow.document (h : HistoryRow) : Json :=
  .obj [(py "effect_id", .str h.effectId.str), (py "event", .str (py h.event.value)),
    (py "from_state", match h.fromState with
      | some s => .str (py s.value)
      | none => .null),
    (py "payload_json", .str h.payloadJson.str),
    (py "previous_hash", .str h.previousHash.str),
    (py "timestamp", .str h.timestamp.str),
    (py "to_state", .str (py h.toState.value))]

theorem dumps_record (h : HistoryRow) : dumps h.record = .ok h.document := by
  obtain ⟨_, _, fromState, _, _, _, _, _⟩ := h
  cases fromState <;> rfl

theorem encodable_document (h : HistoryRow) : Encodable (h.document.text .canonical) := by
  have hlit : ∀ t : Text, Encodable ((Json.str t.str).text .canonical) :=
    fun t => encodable_stringLiteral t.encodable
  have hpy : ∀ s : String, Encodable ((Json.str (py s)).text .canonical) :=
    fun s => encodable_stringLiteral (encodable_py s)
  refine encodable_text_record (encodable_py _) (encodable_py _) ?_ ?_
  · intro m hm
    simp only [List.mem_cons, List.not_mem_nil, or_false] at hm
    rcases hm with rfl | rfl | rfl | rfl | rfl | rfl | rfl <;>
      exact encodable_py _
  · intro m hm
    simp only [List.mem_cons, List.not_mem_nil, or_false] at hm
    rcases hm with rfl | rfl | rfl | rfl | rfl | rfl | rfl
    · exact hlit _
    · exact hpy _
    · cases h.fromState with
      | none => exact encodable_py "null"
      | some s => exact hpy _
    · exact hlit _
    · exact hlit _
    · exact hlit _
    · exact hpy _

def HistoryRow.digest (H : Host) (h : HistoryRow) : Text :=
  H.sha256 ⟨h.document.text .canonical, encodable_document h⟩

theorem canonicalSha256_record (h : HistoryRow) :
    canonicalSha256 H h.record = .ok (h.digest H) := by
  have htext : canonicalText h.record = .ok ⟨h.document.text .canonical, encodable_document h⟩ := by
    unfold canonicalText
    rw [dumps_record]
    exact encode_eq_ok.mpr rfl
  unfold canonicalSha256
  rw [htext]
  rfl

/-- The row `appendHistory` writes, on top of the image it reads. -/
def auditRow (H : Host) (db : Db) (effectId : Text) (event : EffectEvent)
    (fromState : Option EffectState) (toState : EffectState)
    (payload : Json) (stamp : Instant) : HistoryRow :=
  let row : HistoryRow :=
    { effectId, event, fromState, toState
      payloadJson := payload.column
      timestamp := H.isoformat stamp
      previousHash := db.lastHash
      hash := genesis }
  { row with hash := row.digest H }

-- == library calls

variable {α : Type} {w : World} {row : EffectRow}

@[simp] theorem liftPy_ok (a : α) (w : World) : liftPy (.ok a) w = (.ok a, w) := rfl

@[simp] theorem liftPy_error (e : PyErr) (w : World) :
    (liftPy (.error e) : LBlock α) w = (.error (.py e), w) := rfl

theorem readClock_bind (f : Instant → LBlock α) (w : World) : (readClock H >>= f) w
      = f (H.clock w.ticks) { w with ticks := w.ticks + 1 } := rfl

theorem drawUuid_bind (f : Text → LBlock α) (w : World) : (drawUuid H >>= f) w
      = f (H.uuid4 w.draws) { w with draws := w.draws + 1 } := rfl

theorem select_bind {β : Type} (query : Db → β) (f : β → LBlock α)
    (w : World) : (select me query >>= f) w = f (query (w.view me)) w := rfl

theorem rowLocked_apply (me : Nat) (effectId : PyStr) (w : World) :
    rowLocked me effectId w = ((rowLocked me effectId w).1, w) := by
  unfold rowLocked
  split
  · rfl
  · split <;> rfl

theorem rowLocked_ok {effectId : PyStr}
    (h : (rowLocked me effectId w).1 = .ok row) : row.effectId.str = effectId
      ∧ (w.view me).effect? row.effectId = some row := by
  unfold rowLocked at h
  split at h
  · cases h
  · next id hid =>
    split at h
    · cases h
    · next r hr =>
      cases h
      have hkey := Db.effectId_of_effect? hr
      rw [hkey]
      exact ⟨encode_eq_ok.mp hid, hr⟩

variable {effectId id : Text} {f : Instant → EffectRow → EffectRow} {event : EffectEvent}
  {fromState toState : EffectState} {payload : Except PyErr PyVal}

theorem rowLocked_of_effect?
    (h : (w.view me).effect? id = some row) : rowLocked me id.str w = (.ok row, w) := by
  unfold rowLocked
  rw [encode_str]
  simp only
  rw [h]

theorem read_row (h : (w.view me).effect? id = some row) :
    (Prog.block .read (rowLocked me id.str) : LProg _).run w = (.ok row, w) := by
  rw [Prog.run_block]
  exact rowLocked_of_effect? h

-- == statements

theorem execute_apply (h : w.disk.OwnedBy me) (f : Db → Db) :
    execute me f w = (.ok (), { w with disk := w.disk.write me f }) := by
  unfold execute
  rw [show w.disk.lockedFor me = false from h]
  rfl

theorem commit_apply (h : w.disk.OwnedBy me) :
    commit me w = (.ok (), { w with disk := ⟨w.view me, none⟩ }) := by
  unfold commit
  rw [Disk.commit_eq h]
  rfl

theorem rollback_apply (h : w.disk.OwnedBy me) :
    rollback me w = (.ok (), { w with disk := ⟨w.disk.file, none⟩ }) := by
  unfold rollback
  rw [Disk.rollback_eq h]

/-- An append adds its row, or raises because the payload does not
serialise. -/
theorem appendHistory_apply (h : w.disk.OwnedBy me)
    (effectId : Text) (event : EffectEvent) (fromState : Option EffectState)
    (toState : EffectState) (payload : PyVal) :
    appendHistory H me effectId event fromState toState payload w = match dumps payload with
        | .error e => (.error (.py e), w)
        | .ok doc => (.ok (), { w with
            disk := w.disk.write me fun db => db.insertHistory
              (auditRow H (w.view me) effectId event fromState toState doc (H.clock w.ticks))
            ticks := w.ticks + 1 }) := by
  cases hd : dumps payload with
  | error e =>
    unfold appendHistory
    simp only [Block.bind_apply, select, hd, liftPy_error]
  | ok doc =>
    unfold appendHistory
    simp only [Block.bind_apply, select, hd, liftPy_ok, readClock, canonicalSha256_record]
    exact execute_apply (w := ⟨w.disk, w.ticks + 1, w.draws⟩) h _

/-- A transition's statements: the `UPDATE` and its history row, or the
`UPDATE` alone when the payload does not serialise. -/
theorem rewrite_apply (h : w.disk.OwnedBy me) (effectId : Text)
    (f : Instant → EffectRow → EffectRow)
    (hf : ∀ t r, (f t r).effectId = r.effectId) (event : EffectEvent)
    (fromState toState : EffectState) (payload : Except PyErr PyVal) :
    rewrite H me effectId f hf event fromState toState payload w = match payload >>= dumps with
        | .error e => (.error (.py e), { w with
            disk := w.disk.write me fun db =>
              db.updateEffect effectId (f (H.clock w.ticks)) (hf _)
            ticks := w.ticks + 1 })
        | .ok doc => (.ok (), { w with
            disk := w.disk.write me fun db =>
              (db.updateEffect effectId (f (H.clock w.ticks)) (hf _)).insertHistory
                (auditRow H (w.view me) effectId event (some fromState) toState
                  doc (H.clock (w.ticks + 1)))
            ticks := w.ticks + 2 }) := by
  unfold rewrite
  simp only [Block.bind_apply, readClock]
  rw [execute_apply (w := ⟨w.disk, w.ticks + 1, w.draws⟩) h]
  cases payload with
  | error e => rfl
  | ok v =>
    let update : Db → Db := fun db =>
      db.updateEffect effectId (f (H.clock w.ticks)) (hf _)
    have happ := appendHistory_apply (H := H)
      (w := { w with disk := w.disk.write me update, ticks := w.ticks + 1 })
      (Disk.ownedBy_write w.disk me update) effectId event (some fromState)
      toState v
    simp only [liftPy_ok]
    refine happ.trans ?_
    show _ = match dumps v with
      | .error e => _
      | .ok doc => _
    cases dumps v with
    | error e => rfl
    | ok doc =>
      simp only [Disk.write_write, World.view, Disk.view_write]
      rfl

/-- A transition that serialises, and its commit: the image with the row
rewritten and its history row appended is on file. -/
theorem rewrite_commit (h : w.disk.OwnedBy me)
   
    {hf : ∀ t r, (f t r).effectId = r.effectId}
   
    {doc : Json} (hd : payload >>= dumps = .ok doc) (a : α) :
    (rewrite H me effectId f hf event fromState toState payload >>= fun _ =>
        commit me >>= fun _ => pure a) w
      = (.ok a, { w with
          disk := ⟨((w.view me).updateEffect effectId (f (H.clock w.ticks))
              (hf _)).insertHistory (auditRow H (w.view me) effectId event (some fromState) toState
                  doc (H.clock (w.ticks + 1))), none⟩
          ticks := w.ticks + 2 }) := by
  have hrun := rewrite_apply h (H := H) effectId f hf event fromState toState payload
  rw [hd] at hrun
  rw [Block.bind_ok hrun]
  have hcommit := fun f t d =>
    commit_apply (w := ⟨w.disk.write me f, t, d⟩) (Disk.ownedBy_write w.disk me f)
  rw [Block.bind_ok (hcommit _ _ _)]
  simp only [Block.pure_apply, World.view, Disk.view_write]

theorem rewrite_abort (h : w.disk.OwnedBy me)
   
    {hf : ∀ t r, (f t r).effectId = r.effectId}
   
    {e : PyErr} (hd : payload >>= dumps = .error e) (a : α) :
    (rewrite H me effectId f hf event fromState toState payload >>= fun _ =>
        commit me >>= fun _ => pure a) w
      = (.error (.py e), { w with
          disk := w.disk.write me fun db =>
            db.updateEffect effectId (f (H.clock w.ticks)) (hf _)
          ticks := w.ticks + 1 }) := by
  have hrun := rewrite_apply h (H := H) effectId f hf event fromState toState payload
  rw [hd] at hrun
  exact Block.bind_error hrun

end Centinal26.Effects
