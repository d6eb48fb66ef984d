/-
What of a request survives its row: the hash that is taken of it when it is submitted, and the one
that `authorize` takes of what it reads back.
-/
import Centinal26.Effects.Gate
import Centinal26.Py.Utf8

namespace Centinal26.Effects

open Py Steps

variable {H : Host}

-- == hashes

/-- The names in what is written for a value are in order. -/
def inOrder (v : PyVal) : Bool :=
  match dumps v with
  | .ok d => d.isNormal
  | .error _ => false

theorem inOrder_iff {v : PyVal} {d : Json} (h : dumps v = .ok d) :
    inOrder v = true ↔ d.isNormal = true := by
  rw [inOrder, h]

def optDoc : Option PyStr → Json
  | some s => .str s
  | none => .null

/-- What is written for a request whose payload is written as `d`. -/
def EffectRequest.document (r : EffectRequest) (d : Json) : Json :=
  .obj [(py "actor", .str r.actor), (py "capability", .str r.capability),
    (py "created_at", .str r.createdAt),
    (py "expires_at", optDoc (r.expiresAt.map IsoText.raw)),
    (py "idempotency_key", .str r.idempotencyKey), (py "payload", d),
    (py "request_id", .str r.requestId)]

theorem dumps_asdict {r : EffectRequest} {d : Json} (h : dumps r.payload = .ok d) :
    dumps r.asdict = .ok (r.document d) := by
  have hitems : dumpsItems [item "capability" (.str r.capability), item "payload" r.payload,
      item "idempotency_key" (.str r.idempotencyKey), item "request_id" (.str r.requestId),
      item "actor" (.str r.actor), item "expires_at" (optText (r.expiresAt.map IsoText.raw)),
      item "created_at" (.str r.createdAt)]
      = .ok [(.str (py "capability"), .str r.capability), (.str (py "payload"), d),
        (.str (py "idempotency_key"), .str r.idempotencyKey),
        (.str (py "request_id"), .str r.requestId), (.str (py "actor"), .str r.actor),
        (.str (py "expires_at"), optDoc (r.expiresAt.map IsoText.raw)),
        (.str (py "created_at"), .str r.createdAt)] := by
    unfold item
    simp only [dumpsItems, h, dumps]
    cases r.expiresAt <;> rfl
  rw [EffectRequest.asdict, dumps, hitems]
  rfl

theorem sha256_ok {r : EffectRequest} {sha : Text} (h : r.sha256 H = .ok sha) :
    ∃ d text, dumps r.payload = .ok d ∧ text.str = (r.document d).text .canonical
      ∧ sha = H.sha256 text := by
  unfold EffectRequest.sha256 canonicalSha256 canonicalText at h
  cases hd : dumps r.payload with
  | error e =>
    have hasdict : ∃ e, dumps r.asdict = .error e := by
      rw [EffectRequest.asdict, dumps]
      unfold item
      simp only [dumpsItems, hd, dumps]
      exact ⟨e, rfl⟩
    obtain ⟨e', he⟩ := hasdict
    rw [he] at h
    cases h
  | ok d =>
    rw [dumps_asdict hd] at h
    obtain ⟨text, htext, h⟩ := of_bind_ok h
    cases h
    exact ⟨d, text, rfl, encode_eq_ok.mp htext, rfl⟩

theorem document_inj {r : EffectRequest} {d d' : Json}
    (h : (r.document d).text .canonical = (r.document d').text .canonical) : d = d' := by
  have hdoc := text_injective h
  simp only [EffectRequest.document, Json.obj.injEq, List.cons.injEq, Prod.mk.injEq, true_and,
    and_true] at hdoc
  exact hdoc

theorem sha256_stored (hH : Function.Injective H.sha256) {r stored : EffectRequest} {sha : Text}
    (hsha : r.sha256 H = .ok sha) (hstored : r.stored = .ok stored) :
    stored.sha256 H = .ok sha ↔ inOrder r.payload = true := by
  obtain ⟨d, text, hd, htext, rfl⟩ := sha256_ok hsha
  have hread : stored = { r with payload := loads d } := by
    unfold EffectRequest.stored roundTrip at hstored
    rw [hd] at hstored
    exact (Except.ok.inj hstored).symm
  subst hread
  rw [inOrder_iff hd]
  constructor
  · intro h
    obtain ⟨d', text', hd', htext', heq⟩ := sha256_ok h
    have hsame : text = text' := hH heq
    subst hsame
    have hdoc : d = d' := document_inj (htext.symm.trans htext')
    rw [hdoc]
    exact isNormal_dumps_loads d d' hd'
  · intro hnormal
    have hback : dumps (loads d) = .ok d := dumps_loads d hnormal (isShort_dumps _ d hd)
    have hasdict : dumps ({ r with payload := loads d } : EffectRequest).asdict
        = .ok (r.document d) := dumps_asdict (r := { r with payload := loads d }) hback
    unfold EffectRequest.sha256 canonicalSha256 canonicalText
    rw [hasdict, bind_ok_eq, encode_eq_ok.mpr htext]
    rfl

-- == rows

theorem Submitted.found {row : EffectRow} {db db' : Db} (h : Submitted H row db db') :
    db'.effect? row.effectId = some row := by
  cases h with
  | mk hi =>
    obtain ⟨-, -, hall⟩ := Db.insertEffect?_spec hi
    rw [Db.effect?_insertHistory, hall, if_pos rfl]

theorem submitRow_row {w : World} (how : w.disk.OwnedBy 0) {r : EffectRequest} {n : Nat} {id : Text}
    (h : (submitRow H 0 r n w).1 = .ok (some id)) :
    ∃ db row sha stored, (submitRow H 0 r n w).2.disk = ⟨db, none⟩ ∧ db.effect? id = some row
      ∧ r.sha256 H = .ok sha ∧ r.stored = .ok stored ∧ row.requestJson = stored := by
  unfold submitRow at h ⊢
  rw [drawUuid_bind, readClock_bind] at h ⊢
  cases hsha : r.sha256 H with
  | error e =>
    rw [hsha, Block.bind_error (liftPy_error e _)] at h
    cases h
  | ok sha =>
  rw [hsha, Block.bind_ok (liftPy_ok sha _)] at h
  rw [Block.bind_ok (liftPy_ok sha _)]
  cases hstored : r.stored with
  | error e =>
    rw [hstored, Block.bind_error (liftPy_error e _)] at h
    cases h
  | ok stored =>
  rw [hstored, Block.bind_ok (liftPy_ok stored _)] at h
  rw [Block.bind_ok (liftPy_ok stored _)]
  cases hkey : encode r.idempotencyKey with
  | error e =>
    rw [hkey, Block.bind_error (liftPy_error e _)] at h
    cases h
  | ok key =>
  rw [hkey, Block.bind_ok (liftPy_ok key _)] at h
  rw [Block.bind_ok (liftPy_ok key _)]
  split at h
  · rename_i hn
    rw [dif_pos hn]
    rcases insertRow_ended (H := H) (newRow (H.uuid4 w.draws) key sha stored n hn (H.clock w.ticks))
        (w := { w with draws := w.draws + 1, ticks := w.ticks + 1 }) how with
      ⟨hnone, -⟩ | ⟨db, hs, hid, hdisk⟩
    · rw [hnone] at h
      cases h
    · rw [hid] at h
      cases h
      exact ⟨db, _, sha, stored, hdisk, hs.found, rfl, rfl, rfl⟩
  · cases h

theorem submit_row {w : World} (how : w.disk.OwnedBy 0) {r : EffectRequest} {n : Int} {id : Text}
    (h : (step H (.submit r n) w).1 = .ok (.submitted id true)) :
    ∃ db row sha stored, (step H (.submit r n) w).2.disk = ⟨db, none⟩ ∧ db.effect? id = some row
      ∧ r.sha256 H = .ok sha ∧ r.stored = .ok stored ∧ row.requestJson = stored := by
  unfold step at h ⊢
  simp only [Call.prog, Prog.run_map] at h ⊢
  unfold submit at h ⊢
  split at h
  · cases h
  rename_i hcapability
  rw [if_neg hcapability]
  split at h
  · cases h
  rename_i hkey
  rw [if_neg hkey]
  split at h
  · cases h
  rename_i hn
  rw [if_neg hn]
  cases hexpiry : validateRequestExpiry r with
  | error e =>
    rw [hexpiry] at h
    cases h
  | ok u =>
  rw [hexpiry] at h
  cases hres : submitRow H 0 r n.toNat w with
  | mk result w₁ =>
  cases result with
  | error e =>
    rw [Prog.run_bind_error (by rw [Prog.run_block, hres])] at h
    cases h
  | ok inserted =>
  rw [Prog.run_bind_ok (by rw [Prog.run_block, hres])] at h
  rw [Prog.run_bind_ok (by rw [Prog.run_block, hres])]
  cases inserted with
  | none =>
    simp only [Prog.run_block] at h
    obtain ⟨-, hfalse⟩ := submittedBefore_disk (H := H) 0 r w₁
    cases hbefore : (submittedBefore H 0 r w₁).1 with
    | error e =>
      rw [hbefore] at h
      cases h
    | ok found =>
      obtain ⟨id', created⟩ := found
      rw [hbefore] at h
      cases hfalse id' created hbefore
      cases h
  | some id' =>
    cases h
    have hrow := submitRow_row how
      (show (submitRow H 0 r n.toNat w).1 = .ok (some id') by rw [hres])
    rw [hres] at hrow
    exact hrow

def HasRequest (id : Text) (request : EffectRequest) (db : Db) : Prop :=
  ∃ row, db.effect? id = some row ∧ row.requestJson = request

theorem RowMoved.hasRequest {id j : Text} {request : EffectRequest} {mv : Move} {db db' : Db}
    (hm : RowMoved H j mv db db') (h : HasRequest id request db) : HasRequest id request db' := by
  obtain ⟨row, hrow, hrequest⟩ := h
  obtain ⟨row', hrow', hcase⟩ := hm.forward hrow
  rcases hcase with ⟨-, ht⟩ | ⟨-, rfl⟩
  · exact ⟨row', hrow', ht.requestJson.trans hrequest⟩
  · exact ⟨row', hrow', hrequest⟩

theorem Submitted.hasRequest {id : Text} {request : EffectRequest} {row : EffectRow} {db db' : Db}
    (hs : Submitted H row db db') (h : HasRequest id request db) : HasRequest id request db' := by
  obtain ⟨row₀, hrow₀, hrequest⟩ := h
  refine ⟨row₀, ?_, hrequest⟩
  cases hs with
  | mk hi =>
    obtain ⟨hnone, -, hall⟩ := Db.insertEffect?_spec hi
    rw [Db.effect?_insertHistory, hall]
    split
    · next heq =>
      rw [heq, hnone] at hrow₀
      cases hrow₀
    · exact hrow₀

theorem exec_hasRequest {id : Text} {request : EffectRequest} {w : World} (how : w.disk.OwnedBy 0)
    (h : w.disk.Every (HasRequest id request)) (calls : List Call) :
    (Machine.exec (step H) calls w).disk.OwnedBy 0
      ∧ (Machine.exec (step H) calls w).disk.Every (HasRequest id request) := by
  refine Machine.invariant (step H) (C := fun _ => True)
    (I := fun w => w.disk.OwnedBy 0 ∧ w.disk.Every (HasRequest id request)) w ⟨how, h⟩ ?_
    calls fun _ _ => trivial
  intro e hv _ hI
  have hran := step_ran hI.1 e.input (H := H)
  rw [show step H e.input e.before = (e.output, e.after) from hv] at hran
  refine ⟨hran.ownedBy hI.1, hran.every hI.2 fun db db' hwork hdb => ?_⟩
  exact hwork.keeps (I := HasRequest id request) (fun _ _ _ _ hs h => hs.hasRequest h)
    (fun _ _ _ _ hm h => hm.rowMoved.hasRequest h)
    (fun _ _ _ _ _ ht h => ht.rowMoved.hasRequest h) hdb

-- == authorization

/-- An authorization that is approved, made from a hash and a capability, unexpired at a reading of
the clock, and written without error. -/
structure Approves (a : EffectAuthorization) (sha : Text) (capability : PyStr) (now : Instant) :
    Prop where
  approved : a.approved = true
  sha : a.requestSha256 = sha.str
  capability : a.capability = capability
  unexpired : ∃ t, fromisoformat a.expiresAt = .ok (.aware t) ∧ now < t
  stored : ∃ stored, a.stored = .ok stored

theorem Approves.validFor {a : EffectAuthorization} {sha sha' : Text} {r : EffectRequest}
    {now : Instant} (h : Approves a sha r.capability now) (hsha : r.sha256 H = .ok sha') :
    a.validFor H now r = .ok (decide (sha' = sha)) := by
  obtain ⟨t, hparsed, hlt⟩ := h.unexpired
  unfold EffectAuthorization.validFor
  rw [hparsed]
  simp only
  rw [if_pos h.approved, hsha, bind_ok_eq]
  by_cases hsame : sha' = sha
  · rw [if_pos ⟨h.sha.trans (congrArg Text.str hsame.symm), h.capability⟩, decide_eq_true hsame]
    exact congrArg Except.ok (decide_eq_true hlt)
  · rw [if_neg fun hboth => hsame (Text.ext (hboth.1.symm.trans h.sha)), decide_eq_false hsame]

theorem authorize_pending {w : World} (how : w.disk.OwnedBy 0) {id sha sha' : Text}
    {row : EffectRow} {a : EffectAuthorization} (hrow : (w.view 0).effect? id = some row)
    (hpending : row.state = .pendingAuthorization) (hsha : row.requestJson.sha256 H = .ok sha')
    (ha : Approves a sha row.requestJson.capability (H.clock w.ticks)) :
    (step H (.authorize id.str a) w).1
      = .ok (.state (if sha' = sha then .authorized else .denied)) := by
  obtain ⟨stored, hstored⟩ := ha.stored
  unfold step
  simp only [Call.prog, Prog.run_map]
  unfold authorize
  rw [Prog.run_bind_ok (read_row hrow)]
  rw [if_neg (by rw [hpending]; decide), if_neg (by rw [hpending]; decide), Prog.run_block]
  unfold authorizeRow
  rw [readClock_bind, ha.validFor hsha, Block.bind_ok (liftPy_ok _ _), hstored,
    Block.bind_ok (liftPy_ok _ _)]
  have hdumps : (Except.ok (.dict [item "authorization_id" (.str a.authorizationId)])
      : Except PyErr PyVal) >>= dumps
        = .ok (.obj [(py "authorization_id", .str a.authorizationId)]) := rfl
  rw [rewrite_commit (w := { w with ticks := w.ticks + 1 }) how hdumps]
  by_cases hsame : sha' = sha
  · rw [decide_eq_true hsame, if_pos hsame]
    rfl
  · rw [decide_eq_false hsame, if_neg hsame]
    rfl

/-- Whatever happens to a submitted effect, its request is read back with the hash it was submitted
with, and an approval made from that hash authorizes it while it is pending, just if its payload is
in order. -/
theorem request_survives (hH : Function.Injective H.sha256) {calls : List Call}
    {r : EffectRequest} {n : Int} {id : Text}
    (hsub : (step H (.submit r n) (run H calls)).1 = .ok (.submitted id true))
    (more : List Call) :
    let w := run H (calls ++ .submit r n :: more)
    (∃ row sha, (w.view 0).effect? id = some row ∧ r.sha256 H = .ok sha
        ∧ row.requestJson.sha256 H = .ok sha
        ∧ (row.state = .pendingAuthorization → ∀ a, Approves a sha r.capability (H.clock w.ticks) →
            (step H (.authorize id.str a) w).1 = .ok (.state .authorized)))
      ↔ inOrder r.payload = true := by
  intro w
  obtain ⟨db, row₀, sha, stored, hdisk, hrow₀, hsha, hstored, hrequest₀⟩ :=
    submit_row (run_ownedBy calls) hsub
  -- the row is there whatever the calls in between were
  have hheld : (step H (.submit r n) (run H calls)).2.disk.Every (HasRequest id stored) := by
    rw [hdisk]
    exact Disk.every_mk_none ⟨row₀, hrow₀, hrequest₀⟩
  have hafter := exec_hasRequest (H := H) (by rw [hdisk]; exact Disk.ownedBy_mk_none _ _) hheld more
  have hw : w = Machine.exec (step H) more (step H (.submit r n) (run H calls)).2 :=
    run_append calls (.submit r n :: more)
  rw [← hw] at hafter
  obtain ⟨how, hevery⟩ := hafter
  obtain ⟨row, hrow, hrequest⟩ : HasRequest id stored (w.view 0) := hevery.view 0
  rw [← sha256_stored hH hsha hstored]
  constructor
  · rintro ⟨row', sha', hrow', hsha', hback, -⟩
    rw [hrow] at hrow'
    cases hrow'
    rw [hsha] at hsha'
    cases hsha'
    rw [← hrequest]
    exact hback
  · intro hback
    rw [← hrequest] at hback
    refine ⟨row, sha, hrow, hsha, hback, fun hpending a ha => ?_⟩
    have hcapability : row.requestJson.capability = r.capability := by
      unfold EffectRequest.stored at hstored
      obtain ⟨payload, -, h⟩ := of_bind_ok hstored
      cases h
      rw [hrequest]
    rw [authorize_pending how hrow hpending hback (hcapability ▸ ha), if_pos rfl]

-- == samples

section Sample

/-- A machine whose digests are the texts. -/
private def plainHost : Host := { Host.sample fun _ => Sample.newYear with sha256 := id }

private def numbered : EffectRequest :=
  { Sample.request with
    payload := .dict [item "m" (.dict [(.int 2, .none), (.int 10, .none)])] }

private def numberedSha : Text :=
  match numbered.sha256 plainHost with
  | .ok sha => sha
  | .error _ => genesis

/-- A dictionary with the keys 2 and 10 is hashed in this order, and read back in the other one: an
approval of the request is denied. -/
theorem authorize_numbered : (numbered.sha256 plainHost).toOption = some numberedSha
      ∧ Approves { Sample.authorization with requestSha256 := numberedSha.str } numberedSha
        numbered.capability Sample.newYear
      ∧ (step plainHost (.authorize Sample.effectId
          { Sample.authorization with requestSha256 := numberedSha.str })
        (run plainHost [.submit numbered 3])).1.toOption = some (.state .denied) := by
  have happroves : Approves { Sample.authorization with requestSha256 := numberedSha.str }
      numberedSha numbered.capability Sample.newYear := by
    refine ⟨rfl, ?_, rfl, ⟨Sample.newYear + 3600000000, rfl, by decide⟩, ⟨_, rfl⟩⟩
    dsimp only
  exact ⟨by decide +kernel, happroves, by decide +kernel⟩

theorem ok_of_toOption {ε α : Type} {r : Except ε α} {a : α} (h : r.toOption = some a) :
    r = .ok a := by
  cases r with
  | error e => cases h
  | ok b =>
    cases h
    rfl

theorem request_survives_sample : let w := run plainHost ([] ++ .submit Sample.request 3 :: [])
    (∃ row sha, (w.view 0).effect? (plainHost.uuid4 0) = some row
        ∧ Sample.request.sha256 plainHost = .ok sha
        ∧ row.requestJson.sha256 plainHost = .ok sha
        ∧ (row.state = .pendingAuthorization → ∀ a,
          Approves a sha Sample.request.capability (plainHost.clock w.ticks) →
            (step plainHost (.authorize (plainHost.uuid4 0).str a) w).1 = .ok (.state .authorized)))
      ↔ inOrder Sample.request.payload = true :=
  request_survives Function.injective_id (ok_of_toOption (by decide +kernel)) []

end Sample

end Centinal26.Effects
