/-
Histories of a store that holds objectives.
-/
import Centinal26.Governance.Runtime
import Centinal26.Lib.Machine
import Centinal26.Lib.Since
import Centinal26.Py.ReadBack

namespace Centinal26.Governance

open Py Steps Objects

variable {τ : Type}

-- == operations

def IsForeign (a : PutArgs τ) : Prop :=
  a.sourceType ≠ py "guardian" ∧ a.sourceType ≠ py "objective_integrity"

/-- What happens to the store. -/
inductive Op (τ : Type) : Type
  | record (r : Registry) (p : Proposal) (accepted : Bool) (clock : Nat → τ)
  | guardianPut (payload : PyVal) (sourceRef : PyStr) (now : τ)
  | otherPut (a : PutArgs τ) (h : IsForeign a)
  | otherLink (parentId relation childId : PyStr) (now : τ)

inductive Reply : Type
  | recorded (proposalId decisionId : Text) (e : Evaluation)
  | put (objectId : Text)
  | linked

def guardianArgs (payload : PyVal) (sourceRef : PyStr) (now : τ) : PutArgs τ :=
  ⟨py "capability_token", payload, py "guardian", sourceRef, py "CAPABILITY_AUTHORIZATION", now⟩

section Perform

variable (H : Host) (F : Floats τ)

def perform : Op τ → Block StoreError (Db τ) Reply
  | .record r p accepted clock => do
    let out ← record H F r p accepted clock
    pure (.recorded out.1 out.2.1 out.2.2)
  | .guardianPut payload sourceRef now => do
    pure (.put (← (put H F (guardianArgs payload sourceRef now)).commit))
  | .otherPut a _ => do pure (.put (← (put H F a).commit))
  | .otherLink parentId relation childId now => do
    (link F parentId relation childId now).commit
    pure .linked

end Perform

abbrev Step (τ : Type) := Machine.Entry (Op τ) (Except StoreError Reply) (Db τ)

-- == bodies

def bodyOf (kind : PyStr) (payload : PyVal) : Except PyErr Json :=
  dumps (envelope (strip kind) payload)

def digest (H : Host) (body : Json) : Option Text :=
  (encode (body.text .canonical)).toOption.map H.sha256

def written (r : Except PyErr Json) : List Json := r.toOption.toList

def authorizedBody (p : Proposal) (decisionId : Text) : Except PyErr Json :=
  bodyOf (py "authorized_objective") (.dict (strItems (p.authorizedMembers decisionId)))

def Op.bodies (H : Host) : Op τ → List Json
  | .record r p accepted _ =>
    written (bodyOf (py "objective_proposal") (.dict (strItems p.members)))
      ++ written (bodyOf (py "objective_evaluation")
        (.dict (strItems (r.evaluate p accepted).members)))
      ++ if (r.evaluate p accepted).decision = .execute then
          ((written (bodyOf (py "objective_evaluation")
            (.dict (strItems (r.evaluate p accepted).members)))).filterMap (digest H)).flatMap
            fun decisionId => written (authorizedBody p decisionId)
        else []
  | .guardianPut payload _ _ => written (bodyOf (py "capability_token") payload)
  | .otherPut a _ => written (bodyOf a.kind a.payload)
  | .otherLink _ _ _ _ => []

/-- SHA-256 tells the bodies of the operations apart. -/
def CollisionFree (H : Host) (ops : List (Op τ)) : Prop :=
  ∀ b ∈ ops.flatMap (Op.bodies H), ∀ b' ∈ ops.flatMap (Op.bodies H), ∀ id,
    digest H b = some id → digest H b' = some id → b = b'

theorem mem_written {r : Except PyErr Json} {b : Json} (h : r = .ok b) : b ∈ written r := by
  rw [h]
  exact List.mem_singleton_self b

-- == frames

/-- What puts and links do: the objects they add have the bodies `new`, the provenance
they add is `source`, and the aliases stay. -/
structure Extends (H : Host) (new : Json → Prop) (source : Text → PyStr → Prop)
    (db db' : Db τ) : Prop where
  objects : ∀ row ∈ db'.objects.rows, row ∈ db.objects.rows
    ∨ new row.body ∧ digest H row.body = some row.objectId
  provenance : ∀ r ∈ db'.provenance, r ∈ db.provenance ∨ source r.objectId r.sourceType.str
  aliases : db'.aliases = db.aliases

variable {H : Host} {F : Floats τ} {new new' : Json → Prop} {source source' : Text → PyStr → Prop}
  {a b c : Db τ}

theorem Extends.refl (db : Db τ) : Extends H new source db db :=
  ⟨fun _ h => Or.inl h, fun _ h => Or.inl h, rfl⟩

theorem Extends.trans (h : Extends H new source a b) (h' : Extends H new source b c) :
    Extends H new source a c where
  objects row hrow := by
    rcases h'.objects row hrow with hrow | hnew
    · exact h.objects row hrow
    · exact Or.inr hnew
  provenance r hr := by
    rcases h'.provenance r hr with hr | hnew
    · exact h.provenance r hr
    · exact Or.inr hnew
  aliases := h'.aliases.trans h.aliases

theorem Extends.imp (h : Extends H new source a b) (hnew : ∀ body, new body → new' body)
    (hsource : ∀ id s, source id s → source' id s) : Extends H new' source' a b where
  objects row hrow := (h.objects row hrow).imp_right fun hn => ⟨hnew _ hn.1, hn.2⟩
  provenance r hr := (h.provenance r hr).imp_right (hsource _ _)
  aliases := h.aliases

theorem bound_ok {s : PyStr} {t : Text} (h : bound s = .ok t) : encode s = .ok t :=
  of_mapError_ok h

structure Put (H : Host) (args : PutArgs τ) (id : Text) (db db' : Db τ) : Prop where
  body : ∃ body, bodyOf args.kind args.payload = .ok body ∧ digest H body = some id
  extends' : Extends H (fun body => bodyOf args.kind args.payload = .ok body)
    (fun i s => i = id ∧ s = args.sourceType) db db'

variable {args : PutArgs τ} {id : Text} {db db' : Db τ}

theorem put_ok (h : put H F args db = .ok (id, db')) : Put H args id db db' := by
  unfold put at h
  split at h
  · cases h
  · obtain ⟨body, hbody, h⟩ := of_bind_ok h
    obtain ⟨text, htext, h⟩ := of_bind_ok h
    obtain ⟨kind, -, h⟩ := of_bind_ok h
    obtain ⟨sourceType, hsource, h⟩ := of_bind_ok h
    obtain ⟨sourceRef, -, h⟩ := of_bind_ok h
    obtain ⟨evidenceClass, -, h⟩ := of_bind_ok h
    have hdumps : bodyOf args.kind args.payload = .ok body := of_mapError_ok hbody
    have hdigest : digest H body = some (H.sha256 text) := by
      unfold digest
      rw [bound_ok htext]
      rfl
    split at h
    · cases h
      exact ⟨⟨body, hdumps, hdigest⟩, .refl _⟩
    · next now _ =>
      cases h
      refine ⟨⟨body, hdumps, hdigest⟩, ⟨fun row hrow => ?_, fun r hr => ?_, ?_⟩⟩
      · have hobjects : row ∈ (db.objects.insertOrIgnore
            ⟨H.sha256 text, kind, body, now⟩).rows := by
          revert hrow
          unfold Db.attest
          split <;> exact id
        unfold Table.insertOrIgnore at hobjects
        cases hins : db.objects.insert? ⟨H.sha256 text, kind, body, now⟩ with
        | none =>
          rw [hins] at hobjects
          exact Or.inl hobjects
        | some objects =>
          rw [hins] at hobjects
          replace hobjects : row ∈ objects.rows := hobjects
          rw [Table.rows_insert hins, List.mem_append, List.mem_singleton] at hobjects
          rcases hobjects with hold | rfl
          · exact Or.inl hold
          · exact Or.inr ⟨hdumps, hdigest⟩
      · unfold Db.attest at hr
        split at hr
        · exact Or.inl hr
        · rcases List.mem_append.mp hr with hold | hnew
          · exact Or.inl hold
          · obtain rfl := List.mem_singleton.mp hnew
            exact Or.inr ⟨rfl, encode_eq_ok.mp (bound_ok hsource)⟩
      · unfold Db.attest
        split <;> rfl

theorem put_commit (args : PutArgs τ) (db : Db τ) :
    (∃ id db', (put H F args).commit db = (.ok id, db') ∧ Put H args id db db')
      ∨ ∃ e, (put H F args).commit db = (.error e, db) := by
  rcases Tx.commit_cases (put H F args) db with ⟨id, db', h, hcommit⟩ | ⟨e, -, hcommit⟩
  · exact Or.inl ⟨id, db', hcommit, put_ok h⟩
  · exact Or.inr ⟨e, hcommit⟩

theorem link_ok {parentId relation childId : PyStr} {now : τ} {u : Unit}
    (h : link F parentId relation childId now db = .ok (u, db')) : Extends H new source db db' := by
  unfold link at h
  split at h
  · cases h
  · obtain ⟨parent, -, h⟩ := of_bind_ok h
    split at h
    · cases h
    · obtain ⟨child, -, h⟩ := of_bind_ok h
      split at h
      · cases h
      · obtain ⟨relation, -, h⟩ := of_bind_ok h
        split at h
        · cases h
          exact .refl _
        · cases h
          unfold Db.connect
          split <;> exact ⟨fun _ h => Or.inl h, fun _ h => Or.inl h, rfl⟩

theorem link_commit (parentId relation childId : PyStr) (now : τ) (db : Db τ) :
    (∃ db', (link F parentId relation childId now).commit db = (.ok (), db')
      ∧ ∀ new source, Extends H new source db db')
      ∨ ∃ e, (link F parentId relation childId now).commit db = (.error e, db) := by
  rcases Tx.commit_cases (link F parentId relation childId now) db with
    ⟨u, db', h, hcommit⟩ | ⟨e, -, hcommit⟩
  · exact Or.inl ⟨db', hcommit, fun _ _ => link_ok h⟩
  · exact Or.inr ⟨e, hcommit⟩

-- == record

theorem Source.value_ne_guardian (s : Source) : py s.value ≠ py "guardian" := by
  cases s <;> decide

theorem integrity_ne_guardian : py "objective_integrity" ≠ py "guardian" := by decide

theorem pointAt_cases (name : PyStr) (id : Text) (now : τ) (db : Db τ) :
    (∃ e, pointAt F name id now db = (.error e, db)) ∨ ∃ row : AliasRow τ, pointAt F name id now db
          = (.ok (), { db with aliases := db.aliases.upsert row }.record row)
        ∧ row.name.str = strip name ∧ row.objectId = id := by
  unfold pointAt
  split
  · exact Or.inl ⟨_, rfl⟩
  · split
    · next hhas =>
      rcases Tx.commit_cases (pointTo F (strip name) id now) db with
        ⟨u, db', h, hcommit⟩ | ⟨e, -, hcommit⟩
      · unfold pointTo at h
        obtain ⟨name', hname, h⟩ := of_bind_ok h
        obtain ⟨now', -, h⟩ := of_bind_ok h
        rw [if_pos hhas] at h
        cases h
        exact Or.inr ⟨_, hcommit, encode_eq_ok.mp (bound_ok hname), rfl⟩
      · exact Or.inl ⟨e, hcommit⟩
    · exact Or.inl ⟨_, rfl⟩

theorem Put.extends (h : Put H args id db db')
    (hnew : ∀ body, bodyOf args.kind args.payload = .ok body → new body)
    (hsource : args.sourceType ≠ py "guardian") :
    Extends H new (fun _ s => s ≠ py "guardian") db db' :=
  h.extends'.imp hnew fun _ _ hs => hs.2 ▸ hsource

/-- The authorized objective is put and linked; then the alias is moved, if nothing has
raised. -/
theorem promote_cases (p : Proposal) (decisionId : Text) (clock : Nat → τ) (db : Db τ) :
    ∃ mid, Extends H (fun body => authorizedBody p decisionId = .ok body)
        (fun _ s => s ≠ py "guardian") db mid
      ∧ ((∃ e, promote H F p decisionId clock db = (.error e, mid))
        ∨ ∃ (row : AliasRow τ) (body : Json), promote H F p decisionId clock db
            = (.ok (), { mid with aliases := mid.aliases.upsert row }.record row)
          ∧ row.name.str = strip p.currentName ∧ authorizedBody p decisionId = .ok body
          ∧ digest H body = some row.objectId) := by
  unfold promote
  rcases put_commit (H := H) (F := F) (authorizedPut p (clock 3) decisionId) db with
    ⟨id, s₁, h₁, hput⟩ | ⟨e, h₁⟩
  · have hext : Extends H (fun body => authorizedBody p decisionId = .ok body)
        (fun _ s => s ≠ py "guardian") db s₁ :=
      hput.extends (fun _ hb => hb) integrity_ne_guardian
    rw [Block.bind_ok h₁]
    rcases link_commit (H := H) (F := F) decisionId.str (py "authorizes") id.str (clock 4) s₁
      with ⟨s₂, h₂, hlink⟩ | ⟨e, h₂⟩
    · rw [Block.bind_ok h₂]
      refine ⟨s₂, hext.trans (hlink _ _), ?_⟩
      rcases pointAt_cases (F := F) p.currentName id (clock 5) s₂ with
        ⟨e, h₃⟩ | ⟨row, h₃, hname, rfl⟩
      · exact Or.inl ⟨e, h₃⟩
      · obtain ⟨body, hbody, hdigest⟩ := hput.body
        exact Or.inr ⟨row, body, h₃, hname, hbody, hdigest⟩
    · rw [Block.bind_error h₂]
      exact ⟨s₁, hext, Or.inl ⟨e, rfl⟩⟩
  · rw [Block.bind_error h₁]
    exact ⟨db, .refl _, Or.inl ⟨e, rfl⟩⟩

section Bodies

variable {r : Registry} {p : Proposal} {accepted : Bool} {clock : Nat → τ} {body : Json}

theorem proposal_mem_bodies
    (h : bodyOf (py "objective_proposal") (.dict (strItems p.members)) = .ok body) :
    body ∈ (Op.record r p accepted clock).bodies H :=
  List.mem_append_left _ (List.mem_append_left _ (mem_written h))

theorem evaluation_mem_bodies (h : bodyOf (py "objective_evaluation")
      (.dict (strItems (r.evaluate p accepted).members)) = .ok body) :
    body ∈ (Op.record r p accepted clock).bodies H :=
  List.mem_append_left _ (List.mem_append_right _ (mem_written h))

theorem authorized_mem_bodies {evaluation : Json} {decisionId : Text}
    (hexecute : (r.evaluate p accepted).decision = .execute)
    (heval : bodyOf (py "objective_evaluation")
      (.dict (strItems (r.evaluate p accepted).members)) = .ok evaluation)
    (hdigest : digest H evaluation = some decisionId)
    (h : authorizedBody p decisionId = .ok body) :
    body ∈ (Op.record r p accepted clock).bodies H := by
  refine List.mem_append_right _ ?_
  rw [if_pos hexecute]
  exact List.mem_flatMap.mpr ⟨decisionId,
    List.mem_filterMap.mpr ⟨evaluation, mem_written heval, hdigest⟩, mem_written h⟩

end Bodies

/-- `record`, as it leaves the store: it raises, or its decision is not `EXECUTE`, and no
alias has moved; or the decision is `EXECUTE`, and the objective's alias names the
authorized objective. -/
theorem record_cases (r : Registry) (p : Proposal) (accepted : Bool) (clock : Nat → τ) (db : Db τ) :
    ∃ mid, Extends H (fun body => body ∈ (Op.record r p accepted clock).bodies H)
        (fun _ s => s ≠ py "guardian") db mid
      ∧ ((∃ e, record H F r p accepted clock db = (.error e, mid))
        ∨ (∃ proposalId decisionId, record H F r p accepted clock db
            = (.ok (proposalId, decisionId, r.evaluate p accepted), mid)
          ∧ (r.evaluate p accepted).decision ≠ .execute)
        ∨ ∃ proposalId decisionId row body, record H F r p accepted clock db
            = (.ok (proposalId, decisionId, r.evaluate p accepted),
              { mid with aliases := mid.aliases.upsert row }.record row)
          ∧ (r.evaluate p accepted).decision = .execute
          ∧ row.name.str = strip p.currentName ∧ authorizedBody p decisionId = .ok body
          ∧ body ∈ (Op.record r p accepted clock).bodies H
          ∧ digest H body = some row.objectId) := by
  unfold record
  rcases put_commit (H := H) (F := F) (proposalPut p (clock 0)) db with
    ⟨proposalId, s₁, h₁, hproposal⟩ | ⟨e, h₁⟩
  · have hext₁ : Extends H (fun body => body ∈ (Op.record r p accepted clock).bodies H)
        (fun _ s => s ≠ py "guardian") db s₁ :=
      hproposal.extends (fun _ hb => proposal_mem_bodies hb) p.source.value_ne_guardian
    rw [Block.bind_ok h₁]
    rcases put_commit (H := H) (F := F)
        (evaluationPut (clock 1) (r.evaluate p accepted) proposalId) s₁ with
      ⟨decisionId, s₂, h₂, hevaluation⟩ | ⟨e, h₂⟩
    · have hext₂ := hext₁.trans
        (hevaluation.extends (fun _ hb => evaluation_mem_bodies hb) integrity_ne_guardian)
      obtain ⟨evaluation, heval, hdigest⟩ := hevaluation.body
      rw [Block.bind_ok h₂]
      rcases link_commit (H := H) (F := F) proposalId.str (py "evaluated_as") decisionId.str
        (clock 2) s₂ with ⟨s₃, h₃, hlink⟩ | ⟨e, h₃⟩
      · have hext₃ := hext₂.trans (hlink _ _)
        rw [Block.bind_ok h₃]
        by_cases hexecute : (r.evaluate p accepted).decision = .execute
        · rw [if_pos hexecute]
          obtain ⟨mid, hpromote, hcases⟩ :=
            promote_cases (H := H) (F := F) p decisionId clock s₃
          refine ⟨mid, hext₃.trans (hpromote.imp (fun body hb =>
            authorized_mem_bodies hexecute heval hdigest hb) fun _ _ hs => hs), ?_⟩
          rcases hcases with ⟨e, h₄⟩ | ⟨row, body, h₄, hname, hbody, hid⟩
          · exact Or.inl ⟨e, Block.bind_error h₄⟩
          · exact Or.inr (Or.inr ⟨proposalId, decisionId, row, body, Block.bind_ok h₄,
              hexecute, hname, hbody, authorized_mem_bodies hexecute heval hdigest hbody, hid⟩)
        · rw [if_neg hexecute]
          exact ⟨s₃, hext₃, Or.inr (Or.inl ⟨proposalId, decisionId, rfl, hexecute⟩)⟩
      · rw [Block.bind_error h₃]
        exact ⟨s₂, hext₂, Or.inl ⟨e, rfl⟩⟩
    · rw [Block.bind_error h₂]
      exact ⟨s₁, hext₁, Or.inl ⟨e, rfl⟩⟩
  · rw [Block.bind_error h₁]
    exact ⟨db, .refl _, Or.inl ⟨e, rfl⟩⟩

-- == histories

/-- The entry is a record of the proposal that came to `EXECUTE`, under the decision. -/
structure Executed (r : Registry) (p : Proposal) (accepted : Bool) (decisionId : Text)
    (e : Step τ) : Prop where
  input : ∃ clock, e.input = .record r p accepted clock
  output : ∃ proposalId, e.output = .ok (.recorded proposalId decisionId (r.evaluate p accepted))
  execute : (r.evaluate p accepted).decision = .execute

def Moves (name : PyStr) (e : Step τ) : Prop :=
  ∃ r p accepted decisionId, Executed r p accepted decisionId e ∧ strip p.currentName = name

/-- A record moves the alias to the object that authorizes its proposal. -/
def Names (H : Host) (name : PyStr) (id : Text) (e : Step τ) : Prop :=
  ∃ r p accepted decisionId body, Executed r p accepted decisionId e
    ∧ strip p.currentName = name ∧ authorizedBody p decisionId = .ok body
    ∧ body ∈ e.input.bodies H ∧ digest H body = some id

def Guards (H : Host) (payload : PyVal) (id : Text) (e : Step τ) : Prop :=
  ∃ sourceRef now body, e.input = .guardianPut payload sourceRef now ∧ e.output = .ok (.put id)
    ∧ bodyOf (py "capability_token") payload = .ok body ∧ digest H body = some id

/-- What a history of operations leaves. -/
structure StoreOk (H : Host) (past : List (Step τ)) (db : Db τ) : Prop where
  addressed : ∀ row ∈ db.objects.rows,
    (∃ e ∈ past, row.body ∈ e.input.bodies H) ∧ digest H row.body = some row.objectId
  guarded : ∀ row ∈ db.provenance, row.sourceType.str = py "guardian" →
    ∃ e ∈ past, ∃ payload, Guards H payload row.objectId e
  current : ∀ name id, db.current? name = some id →
    past.Since (Names H name.str id) (Moves name.str)

theorem storeOk_empty : StoreOk H [] (Db.empty (τ := τ)) :=
  ⟨nofun, nofun, nofun⟩

/-- What an operation does to the store: it extends it, and moves one alias if it is a
record that comes to `EXECUTE`. -/
def Effect (H : Host) (e : Step τ) : Prop :=
  ∃ mid, Extends H (fun body => body ∈ e.input.bodies H)
      (fun id s => s = py "guardian" → ∃ payload, Guards H payload id e) e.before mid
    ∧ ((e.after = mid ∧ ∀ name, ¬ Moves name e)
      ∨ ∃ row, e.after = { mid with aliases := mid.aliases.upsert row }.record row
        ∧ Names H row.name.str row.objectId e)

theorem not_moves {e : Step τ} (h : ∀ r p accepted clock, e.input ≠ .record r p accepted clock)
    (name : PyStr) : ¬ Moves name e := by
  rintro ⟨r, p, accepted, -, ⟨⟨clock, hin⟩, -, -⟩, -⟩
  exact h r p accepted clock hin

theorem effect {e : Step τ} (hv : e.Valid (perform H F)) : Effect H e := by
  obtain ⟨i, db, out, db'⟩ := e
  replace hv : perform H F i db = (out, db') := hv
  cases i with
  | record r p accepted clock =>
    obtain ⟨mid, hext, hcases⟩ := record_cases (H := H) (F := F) r p accepted clock db
    refine ⟨mid, hext.imp (fun _ hb => hb) fun _ _ hne heq => absurd heq hne, ?_⟩
    rcases hcases with ⟨e, h⟩ | ⟨pid, did, h, hdecision⟩ | ⟨pid, did, row, body, h, hexecute,
      hname, hbody, hmem, hid⟩
    · cases hv.symm.trans (Block.bind_error h)
      refine Or.inl ⟨rfl, ?_⟩
      rintro name ⟨r', p', accepted', did, ⟨-, ⟨pid, hout⟩, -⟩, -⟩
      cases hout
    · cases hv.symm.trans (Block.bind_ok h)
      refine Or.inl ⟨rfl, ?_⟩
      rintro name ⟨r', p', accepted', did', ⟨⟨clock', hin⟩, -, hexecute⟩, -⟩
      cases hin
      exact hdecision hexecute
    · cases hv.symm.trans (Block.bind_ok h)
      exact Or.inr ⟨row, rfl, r, p, accepted, did, body,
        ⟨⟨clock, rfl⟩, ⟨pid, rfl⟩, hexecute⟩, hname.symm, hbody, hmem, hid⟩
  | guardianPut payload sourceRef now =>
    have hmoves := not_moves (e := ⟨.guardianPut payload sourceRef now, db, out, db'⟩)
      fun r p accepted clock => nofun
    rcases put_commit (H := H) (F := F) (guardianArgs payload sourceRef now) db with
      ⟨id, s, h, hput⟩ | ⟨e, h⟩
    · cases hv.symm.trans (Block.bind_ok h)
      obtain ⟨body, hbody, hid⟩ := hput.body
      refine ⟨_, hput.extends'.imp (fun _ hb => mem_written hb) ?_, Or.inl ⟨rfl, hmoves⟩⟩
      rintro i s ⟨rfl, -⟩ -
      exact ⟨payload, sourceRef, now, body, rfl, rfl, hbody, hid⟩
    · cases hv.symm.trans (Block.bind_error h)
      exact ⟨_, .refl _, Or.inl ⟨rfl, hmoves⟩⟩
  | otherPut a hforeign =>
    have hmoves := not_moves (e := ⟨.otherPut a hforeign, db, out, db'⟩)
      fun r p accepted clock => nofun
    rcases put_commit (H := H) (F := F) a db with ⟨id, s, h, hput⟩ | ⟨e, h⟩
    · cases hv.symm.trans (Block.bind_ok h)
      refine ⟨_, hput.extends'.imp (fun _ hb => mem_written hb) ?_, Or.inl ⟨rfl, hmoves⟩⟩
      rintro i s ⟨-, rfl⟩ hs
      exact absurd hs hforeign.1
    · cases hv.symm.trans (Block.bind_error h)
      exact ⟨_, .refl _, Or.inl ⟨rfl, hmoves⟩⟩
  | otherLink parentId relation childId now =>
    have hmoves := not_moves (e := ⟨.otherLink parentId relation childId now, db, out, db'⟩)
      fun r p accepted clock => nofun
    rcases link_commit (H := H) (F := F) parentId relation childId now db with
      ⟨s, h, hext⟩ | ⟨e, h⟩
    · cases hv.symm.trans (Block.bind_ok h)
      exact ⟨_, hext _ _, Or.inl ⟨rfl, hmoves⟩⟩
    · cases hv.symm.trans (Block.bind_error h)
      exact ⟨_, .refl _, Or.inl ⟨rfl, hmoves⟩⟩

theorem moves_of_names {name name' : PyStr} {id : Text} {e : Step τ} (h : Names H name id e)
    (h' : Moves name' e) : name' = name := by
  obtain ⟨r, p, accepted, did, body, ⟨⟨clock, hin⟩, -, -⟩, rfl, -⟩ := h
  obtain ⟨r', p', accepted', did', ⟨⟨clock', hin'⟩, -, -⟩, rfl⟩ := h'
  rw [hin] at hin'
  cases hin'
  rfl

theorem storeOk_step (past : List (Step τ)) (e : Step τ) (hv : e.Valid (perform H F))
    (hok : StoreOk H past e.before) : StoreOk H (past ++ [e]) e.after := by
  obtain ⟨mid, hext, hafter⟩ := effect hv
  have haddressed : ∀ row ∈ mid.objects.rows, (∃ e' ∈ past ++ [e], row.body ∈ e'.input.bodies H)
        ∧ digest H row.body = some row.objectId := by
    intro row hrow
    rcases hext.objects row hrow with hold | ⟨hnew, hid⟩
    · obtain ⟨⟨e', he', hb⟩, hid⟩ := hok.addressed row hold
      exact ⟨⟨e', List.mem_append_left _ he', hb⟩, hid⟩
    · exact ⟨⟨e, List.mem_append_right _ (List.mem_singleton_self e), hnew⟩, hid⟩
  have hguarded : ∀ row ∈ mid.provenance, row.sourceType.str = py "guardian" →
      ∃ e' ∈ past ++ [e], ∃ payload, Guards H payload row.objectId e' := by
    intro row hrow hsource
    rcases hext.provenance row hrow with hold | hnew
    · obtain ⟨e', he', hg⟩ := hok.guarded row hold hsource
      exact ⟨e', List.mem_append_left _ he', hg⟩
    · exact ⟨e, List.mem_append_right _ (List.mem_singleton_self e), hnew hsource⟩
  rcases hafter with ⟨hafter, hmoves⟩ | ⟨row, hafter, hnames⟩
  · rw [hafter]
    refine ⟨haddressed, hguarded, fun name id hcurrent => ?_⟩
    unfold Db.current? at hcurrent
    rw [hext.aliases] at hcurrent
    exact List.since_concat.mpr (Or.inr ⟨hmoves _, hok.current name id hcurrent⟩)
  · rw [hafter]
    refine ⟨haddressed, hguarded, fun name id hcurrent => ?_⟩
    have hfind : (if name = row.name then some row else mid.aliases.find? name).map
        AliasRow.objectId = some id := by
      rw [← Table.find?_upsert]
      exact hcurrent
    by_cases hname : name = row.name
    · rw [if_pos hname] at hfind
      cases hfind
      rw [hname]
      exact List.since_concat.mpr (Or.inl hnames)
    · rw [if_neg hname, hext.aliases] at hfind
      refine List.since_concat.mpr (Or.inr ⟨fun hmoves => hname ?_, hok.current name id hfind⟩)
      exact Text.ext (moves_of_names hnames hmoves)

theorem storeOk (ops : List (Op τ)) : StoreOk H (Machine.trace (perform H F) ops Db.empty)
      (Machine.exec (perform H F) ops Db.empty) :=
  Machine.history_invariant (C := fun _ => True) _ _ storeOk_empty
    (fun past e hv _ hok => storeOk_step past e hv hok) ops fun _ _ => trivial

end Centinal26.Governance
