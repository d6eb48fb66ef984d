/-
Aliases resolve to what they are pointed at, where nothing is stripped from them.
-/
import Mathlib.Data.List.DropRight
import Centinal26.Governance.Soundness
import Centinal26.Lib.Ends
import Centinal26.Objects.Aliases

namespace Centinal26.Governance.Pointing

open Py Steps Objects

variable {τ : Type}

-- == strip

theorem head?_dropWhile {α : Type} (p : α → Bool) (s : List α) {c : α}
    (h : (s.dropWhile p).head? = some c) : p c = false := by
  induction s with
  | nil => cases h
  | cons a s ih =>
    rw [List.dropWhile_cons] at h
    split at h
    · exact ih h
    · next ha =>
      cases h
      exact Bool.eq_false_iff.mpr ha

theorem strip_eq (s : PyStr) : strip s = (s.dropWhile isSpace).rdropWhile isSpace := rfl

theorem strip_strip (s : PyStr) : strip (strip s) = strip s := by
  have hstart : (strip s).dropWhile isSpace = strip s := by
    obtain ⟨rest, hrest⟩ : strip s <+: s.dropWhile isSpace := List.rdropWhile_prefix _ _
    cases hs : strip s with
    | nil => rfl
    | cons c cs =>
      have hhead : (s.dropWhile isSpace).head? = some c := by
        rw [← hrest, hs]
        rfl
      exact List.dropWhile_cons_of_neg (by rw [head?_dropWhile isSpace s hhead]; decide)
  rw [strip_eq (strip s), hstart, strip_eq s]
  exact List.rdropWhile_idempotent _ _

-- == operations

/-- What happens to the store. -/
inductive Op (τ : Type) : Type
  | put (a : PutArgs τ)
  | link (parentId relation childId : PyStr) (now : τ)
  | point (name objectId : PyStr) (now : τ)
  | pointIfCurrent (name : PyStr) (expected : Option PyStr) (new : PyStr) (now : τ)
  | record (r : Registry) (p : Proposal) (accepted : Bool) (clock : Nat → τ)

inductive Reply : Type
  | put (objectId : Text)
  | linked
  | pointed
  | recorded (proposalId decisionId : Text) (e : Evaluation)

section Perform

variable (H : Host) (F : Floats τ)

/-- The operations of the store, one after the other. -/
def perform : Op τ → Block StoreError (Db τ) Reply
  | .put a => do pure (.put (← (put H F a).commit))
  | .link parentId relation childId now => do
    (link F parentId relation childId now).commit
    pure .linked
  | .point name objectId now =>
    ((fun _ => Reply.pointed) <$> point H F name objectId now).run
  | .pointIfCurrent name expected new now =>
    ((fun _ => Reply.pointed) <$> pointIfCurrent H F name expected new now).run
  | .record r p accepted clock => do
    let out ← record H F r p accepted clock
    pure (.recorded out.1 out.2.1 out.2.2)

end Perform

abbrev Step (τ : Type) := Machine.Entry (Op τ) (Except StoreError Reply) (Db τ)

inductive Points (H : Host) (name : PyStr) (id : Text) (e : Step τ) : Prop
  | point (now : τ) (hin : e.input = .point name id.str now) (hout : e.output = .ok .pointed)
  | swap (expected : Option PyStr) (now : τ)
      (hin : e.input = .pointIfCurrent name expected id.str now)
      (hout : e.output = .ok .pointed)
  | record (r : Registry) (p : Proposal) (accepted : Bool) (clock : Nat → τ)
      (proposalId decisionId : Text) (body : Json) (hin : e.input = .record r p accepted clock)
      (hout : e.output = .ok (.recorded proposalId decisionId (r.evaluate p accepted)))
      (hexecute : (r.evaluate p accepted).decision = .execute)
      (hname : p.currentName = name) (hbody : authorizedBody p decisionId = .ok body)
      (hid : digest H body = some id)

def Moves (H : Host) (name : PyStr) (e : Step τ) : Prop := ∃ id, Points H name id e

def Resolves (db : Db τ) (name : PyStr) (id : Text) : Prop :=
  ∃ o, db.resolve name = .ok o ∧ o.objectId = id

/-- The step leaves what the alias resolves to. -/
def Leaves (name : PyStr) (e : Step τ) : Prop :=
  e.after.resolve name = e.before.resolve name

/-- What is expected of a run. -/
structure AliasesHold (H : Host) (F : Floats τ) (ops : List (Op τ)) : Prop where
  resolves : ∀ pre e post, Machine.trace (perform H F) ops Db.empty = pre ++ e :: post →
    ∀ name id, (pre ++ [e]).Since (Points H name id) (Moves H name) → Resolves e.after name id
  leaves : ∀ e ∈ Machine.trace (perform H F) ops Db.empty, ∀ name, ¬ Moves H name e → Leaves name e
  promoted : ∀ e ∈ Machine.trace (perform H F) ops Db.empty, ∀ r p accepted clock proposalId
    decisionId, e.input = .record r p accepted clock →
    e.output = .ok (.recorded proposalId decisionId (r.evaluate p accepted)) →
    (r.evaluate p accepted).decision = .execute →
    (∃ body id, authorizedBody p decisionId = .ok body ∧ digest H body = some id
      ∧ Resolves e.after (py "objective/current/" ++ p.objectiveId) id)
    ∧ ∀ objectiveId, objectiveId ≠ p.objectiveId → Leaves (py "objective/current/" ++ objectiveId) e

/-- No step points an alias string from which `strip` takes something. -/
def Plain (H : Host) (F : Floats τ) (ops : List (Op τ)) : Prop :=
  ∀ e ∈ Machine.trace (perform H F) ops Db.empty, ∀ name id, Points H name id e → strip name = name

variable {H : Host} {F : Floats τ}

-- == shelves

/-- What every step keeps of a store, and of one it started from: objects stay and can
be read, an alias names an object, and what is left of it by `strip`. -/
structure Shelved (start db : Db τ) : Prop where
  kept : ∀ row ∈ start.objects.rows, row ∈ db.objects.rows
  readable : ∀ row ∈ db.objects.rows, ∃ d, row.payload? = some d
  present : ∀ name id, db.current? name = some id → db.has id = true
  stripped : ∀ name id, db.current? name = some id → strip name.str = name.str

variable {row : ObjectRow τ} {out : Except StoreError Bool × Db τ} {r : Registry} {p : Proposal}
  {accepted : Bool} {clock : Nat → τ}

theorem has_of_mem {db : Db τ} (h : row ∈ db.objects.rows) : db.has row.objectId = true := by
  unfold Db.has
  rw [Table.find?_of_mem h]
  rfl

variable {id : Text} {start db' : Db τ} {now : τ} {u : Unit} {name objectId : PyStr} {e : Step τ}

theorem row_of_has {db : Db τ} (h : db.has id = true) :
    ∃ row ∈ db.objects.rows, row.objectId = id := by
  obtain ⟨row, hrow⟩ := Option.isSome_iff_exists.mp h
  exact ⟨row, Table.mem_of_find? hrow, Table.key_of_find? hrow⟩

theorem shelved_empty : Shelved (Db.empty (τ := τ)) Db.empty where
  kept _ h := h
  readable _ h := by cases h
  present _ _ h := by cases h
  stripped _ _ h := by cases h

theorem Shelved.self {db : Db τ} (h : Shelved start db) : Shelved db db :=
  ⟨fun _ hrow => hrow, h.readable, h.present, h.stripped⟩

theorem Shelved.extend {db : Db τ} (h : Shelved start db)
    (haliases : db'.aliases = db.aliases) (hkept : ∀ row ∈ db.objects.rows, row ∈ db'.objects.rows)
    (hnew : ∀ row ∈ db'.objects.rows, row ∈ db.objects.rows ∨ ∃ d, row.payload? = some d) :
    Shelved start db' where
  kept row hrow := hkept row (h.kept row hrow)
  readable row hrow := (hnew row hrow).elim (h.readable row) id
  present name id hcurrent := by
    unfold Db.current? at hcurrent
    rw [haliases] at hcurrent
    obtain ⟨row, hrow, rfl⟩ := row_of_has (h.present name id hcurrent)
    exact has_of_mem (hkept row hrow)
  stripped name id hcurrent := by
    unfold Db.current? at hcurrent
    rw [haliases] at hcurrent
    exact h.stripped name id hcurrent

theorem mem_insertOrIgnore {α κ : Type} [DecidableEq κ] {key : α → κ} {t : Table key} {a b : α}
    (h : b ∈ t.rows) : b ∈ (t.insertOrIgnore a).rows := by
  unfold Table.insertOrIgnore
  cases hins : t.insert? a with
  | none => exact h
  | some t' =>
    show b ∈ t'.rows
    rw [Table.rows_insert hins]
    exact List.mem_append_left _ h

theorem attest_objects (db : Db τ) (row : ProvenanceRow τ) :
    (db.attest row).objects = db.objects := by
  unfold Db.attest
  split <;> rfl

theorem put_kept {a : PutArgs τ} {db : Db τ} (h : put H F a db = .ok (id, db')) :
    ∀ row ∈ db.objects.rows, row ∈ db'.objects.rows := by
  unfold put at h
  split at h
  · cases h
  · obtain ⟨body, -, h⟩ := of_bind_ok h
    obtain ⟨text, -, h⟩ := of_bind_ok h
    obtain ⟨kind, -, h⟩ := of_bind_ok h
    obtain ⟨sourceType, -, h⟩ := of_bind_ok h
    obtain ⟨sourceRef, -, h⟩ := of_bind_ok h
    obtain ⟨evidenceClass, -, h⟩ := of_bind_ok h
    split at h
    · cases h
      exact fun _ hrow => hrow
    · cases h
      intro row hrow
      rw [attest_objects]
      exact mem_insertOrIgnore hrow

theorem put_shelved (start : Db τ) (a : PutArgs τ) :
    ((put H F a).commit).Keeps (Shelved start) := by
  intro db h
  rcases Tx.commit_cases (put H F a) db with ⟨id, db', hput, hcommit⟩ | ⟨e, -, hcommit⟩
  · rw [hcommit]
    have hext := (put_ok hput).extends'
    refine h.extend hext.aliases (put_kept hput) fun row hrow => ?_
    refine (hext.objects row hrow).imp_right fun hbody => ?_
    obtain ⟨d, -, hpayload⟩ := body_payload hbody.1
    exact ⟨_, hpayload⟩
  · rw [hcommit]
    exact h

theorem link_kept {parentId relation childId : PyStr} {db : Db τ}
    (h : link F parentId relation childId now db = .ok (u, db')) :
    db'.objects = db.objects ∧ db'.aliases = db.aliases := by
  unfold link at h
  split at h
  · cases h
  · obtain ⟨parent, -, h⟩ := of_bind_ok h
    split at h
    · cases h
    · obtain ⟨child, -, h⟩ := of_bind_ok h
      split at h
      · cases h
      · obtain ⟨relation, -, h⟩ := of_bind_ok h
        split at h
        · cases h
          exact ⟨rfl, rfl⟩
        · cases h
          unfold Db.connect
          split <;> exact ⟨rfl, rfl⟩

theorem link_shelved (start : Db τ) (parentId relation childId : PyStr) (now : τ) :
    ((link F parentId relation childId now).commit).Keeps (Shelved start) := by
  intro db h
  rcases Tx.commit_cases (link F parentId relation childId now) db with
    ⟨u, db', hlink, hcommit⟩ | ⟨e, -, hcommit⟩
  · rw [hcommit]
    obtain ⟨hobjects, haliases⟩ := link_kept hlink
    refine h.extend haliases ?_ ?_
    · rw [hobjects]
      exact fun _ hrow => hrow
    · rw [hobjects]
      exact fun _ hrow => Or.inl hrow
  · rw [hcommit]
    exact h

-- == repointing

/-- The alias that is left of a string is moved to an object. -/
structure Repoints (name : PyStr) (id : Text) (db db' : Db τ) : Prop where
  objects : db'.objects = db.objects
  has : db.has id = true
  current : ∃ key : Text, key.str = strip name
    ∧ ∀ other, db'.current? other = if other = key then some id else db.current? other

theorem Repoints.shelved {db : Db τ}
    (h : Repoints name id db db') (hdb : Shelved start db) : Shelved start db' := by
  obtain ⟨hobjects, hhas, key, hkey, hcurrent⟩ := h
  have hhas' : ∀ i, db'.has i = db.has i := by
    intro i
    unfold Db.has
    rw [hobjects]
  refine ⟨?_, ?_, fun other i hi => ?_, fun other i hi => ?_⟩
  · rw [hobjects]
    exact hdb.kept
  · rw [hobjects]
    exact hdb.readable
  · rw [hcurrent] at hi
    rw [hhas']
    split at hi
    · cases hi
      exact hhas
    · exact hdb.present other i hi
  · rw [hcurrent] at hi
    split at hi
    · next heq =>
      rw [heq, hkey]
      exact strip_strip name
    · exact hdb.stripped other i hi

theorem pointAt_repoints (name : PyStr) (id : Text) (now : τ) (db : Db τ) :
    (∃ e, pointAt F name id now db = (.error e, db))
      ∨ ∃ db', pointAt F name id now db = (.ok (), db') ∧ Repoints name id db db' := by
  rcases pointAt_cases (F := F) name id now db with herror | ⟨row, h, hname, rfl⟩
  · exact Or.inl herror
  · refine Or.inr ⟨_, h, rfl, ?_, row.name, hname, (wrote_upsert row db).current⟩
    by_contra hhas
    unfold pointAt at h
    split at h
    · cases h
    · cases h

theorem pointName_run {db : Db τ} (hid : bound objectId = .ok id) :
    (pointName H F name objectId now).run db
      = if db.has id then (access H F (.point name id now)).run db
        else (.error (.py (.keyError objectId)), db) := by
  have hfind : (access H F (.find id)).run db = (.ok (db.has id), db) := rfl
  have hrun := Prog.run_bind_ok (f := fun found => if found then access H F (.point name id now)
    else throw (.py (.keyError objectId))) hfind
  unfold pointName
  rw [hid]
  refine Eq.trans hrun ?_
  split
  · rfl
  · rfl

theorem pointTo_repoints {db : Db τ}
    (h : pointTo F (strip name) id now db = .ok (u, db')) : Repoints name id db db' := by
  unfold pointTo at h
  obtain ⟨key, hkey, h⟩ := of_bind_ok h
  obtain ⟨at', -, h⟩ := of_bind_ok h
  split at h
  · next hhas =>
    cases h
    exact ⟨rfl, hhas, key, encode_eq_ok.mp (bound_ok hkey), (wrote_upsert _ db).current⟩
  · cases h

def Pointed (name : PyStr) (objectId : PyStr) (db : Db τ) (out : Except StoreError Bool × Db τ) :
    Prop :=
  (∃ e, out = (.error e, db))
    ∨ ∃ r id db', out = (.ok r, db') ∧ id.str = objectId ∧ Repoints name id db db'

theorem point_pointed (name objectId : PyStr) (now : τ) (db : Db τ) :
    Pointed name objectId db ((point H F name objectId now).run db) := by
  unfold point
  by_cases hname : strip name = []
  · rw [if_pos hname]
    exact Or.inl ⟨_, rfl⟩
  · rw [if_neg hname]
    cases hid : bound objectId with
    | error e =>
      unfold pointName
      rw [hid]
      exact Or.inl ⟨e, rfl⟩
    | ok id =>
      rw [pointName_run hid]
      split
      · rcases Tx.commit_cases (accessTx H F (.point (strip name) id now)) db with
          ⟨r, db', h, hcommit⟩ | ⟨e, -, hcommit⟩
        · obtain ⟨⟨u, mid⟩, hpoint, heq⟩ := of_bind_ok h
          cases heq
          refine Or.inr ⟨true, id, mid, ?_, encode_eq_ok.mp (bound_ok hid), pointTo_repoints hpoint⟩
          rw [access, Prog.run_block, hcommit]
        · refine Or.inl ⟨e, ?_⟩
          rw [access, Prog.run_block, hcommit]
      · exact Or.inl ⟨_, rfl⟩

theorem swap_repoints {new : PyStr} {expected : Option PyStr} {db : Db τ}
    (h : swap F (strip name) expected new now db = .ok (u, db')) :
    ∃ id : Text, id.str = new ∧ Repoints name id db db' := by
  obtain ⟨row, hwrote, hname, hnew, -⟩ := swap_wrote h
  obtain ⟨id, hid, h⟩ := of_bind_ok h
  obtain rfl : row.objectId = id := Text.ext (by rw [hnew, encode_eq_ok.mp (bound_ok hid)])
  split at h
  · next hhas =>
    obtain ⟨key, -, h⟩ := of_bind_ok h
    refine ⟨row.objectId, hnew, ?_, hhas, row.name, hname, hwrote.current⟩
    unfold swapRow at h
    split at h
    · obtain ⟨at', -, h⟩ := of_bind_ok h
      split at h
      · split at h
        · cases h
        · cases h
          rfl
      · cases h
        rfl
    · cases h
  · cases h

theorem pointIfCurrent_pointed (name : PyStr) (expected : Option PyStr) (new : PyStr) (now : τ)
    (db : Db τ) : Pointed name new db ((pointIfCurrent H F name expected new now).run db) := by
  unfold pointIfCurrent
  by_cases hname : strip name = []
  · rw [if_pos hname]
    exact Or.inl ⟨_, rfl⟩
  · rw [if_neg hname, access, Prog.run_block]
    rcases Tx.commit_cases (accessTx H F (.swap (strip name) expected new now)) db with
      ⟨r, db', h, hcommit⟩ | ⟨e, -, hcommit⟩
    · obtain ⟨⟨u, mid⟩, hswap, heq⟩ := of_bind_ok h
      cases heq
      obtain ⟨id, hid, hrepoints⟩ := swap_repoints hswap
      exact Or.inr ⟨true, id, mid, hcommit, hid, hrepoints⟩
    · exact Or.inl ⟨e, hcommit⟩

theorem Pointed.shelved {db : Db τ} (h : Pointed name objectId db out)
    (hdb : Shelved start db) : Shelved start out.2 := by
  rcases h with ⟨e, rfl⟩ | ⟨r, id, db', rfl, -, hrepoints⟩
  · exact hdb
  · exact hrepoints.shelved hdb

theorem pointAt_shelved (start : Db τ) (name : PyStr) (id : Text) (now : τ) :
    (pointAt F name id now).Keeps (Shelved start) := by
  intro db h
  rcases pointAt_repoints (F := F) name id now db with ⟨e, hrun⟩ | ⟨db', hrun, hrepoints⟩
  · rw [hrun]
    exact h
  · rw [hrun]
    exact hrepoints.shelved h

theorem promote_shelved (start : Db τ) (p : Proposal) (decisionId : Text) (clock : Nat → τ) :
    (promote H F p decisionId clock).Keeps (Shelved start) :=
  (put_shelved start _).bind fun _ => (link_shelved start _ _ _ _).bind fun _ =>
    pointAt_shelved start _ _ _

theorem record_shelved (start : Db τ) (r : Registry) (p : Proposal) (accepted : Bool)
    (clock : Nat → τ) : (record H F r p accepted clock).Keeps (Shelved start) := by
  refine (put_shelved start _).bind fun _ => (put_shelved start _).bind fun decisionId =>
    (link_shelved start _ _ _ _).bind fun _ => ?_
  split
  · exact (promote_shelved start p decisionId clock).bind fun _ => Block.Keeps.pure _
  · exact Block.Keeps.pure _

theorem perform_shelved (start : Db τ) (op : Op τ) : (perform H F op).Keeps (Shelved start) := by
  cases op with
  | put a => exact (put_shelved start a).bind fun _ => Block.Keeps.pure _
  | link parentId relation childId now =>
    exact (link_shelved start parentId relation childId now).bind fun _ => Block.Keeps.pure _
  | point name objectId now =>
    intro db h
    show Shelved start ((((fun _ => Reply.pointed) <$> point H F name objectId now).run db).2)
    rw [Prog.run_map]
    exact (point_pointed name objectId now db).shelved h
  | pointIfCurrent name expected new now =>
    intro db h
    show Shelved start
      ((((fun _ => Reply.pointed) <$> pointIfCurrent H F name expected new now).run db).2)
    rw [Prog.run_map]
    exact (pointIfCurrent_pointed name expected new now db).shelved h
  | record r p accepted clock =>
    exact (record_shelved start r p accepted clock).bind fun _ => Block.Keeps.pure _

-- == aliases

/-- What an operation does to the aliases: nothing, or it moves what is left of the string
it points. -/
def AliasCases (H : Host) (e : Step τ) : Prop :=
  (e.after.aliases = e.before.aliases ∧ ∀ name, ¬ Moves H name e)
    ∨ ∃ name id key, Points H name id e ∧ Text.str key = strip name
      ∧ ∀ other, e.after.current? other = if other = key then some id else e.before.current? other

theorem not_moves_error {x : StoreError} (h : e.output = .error x) (name : PyStr) :
    ¬ Moves H name e := by
  rintro ⟨id, hpoints⟩
  cases hpoints with
  | point _ _ hout => cases h.symm.trans hout
  | swap _ _ _ hout => cases h.symm.trans hout
  | record _ _ _ _ _ _ _ _ hout => cases h.symm.trans hout

theorem points_unique {name' : PyStr} {id' : Text}
    (h : Points H name id e) (h' : Points H name' id' e) : name' = name ∧ id' = id := by
  cases h with
  | point now hin hout =>
    cases h' with
    | point _ hin' _ =>
      rw [hin] at hin'
      injection hin' with hname hid
      exact ⟨hname.symm, (Text.ext hid).symm⟩
    | swap _ _ hin' _ => cases hin.symm.trans hin'
    | record _ _ _ _ _ _ _ hin' => cases hin.symm.trans hin'
  | swap expected now hin hout =>
    cases h' with
    | point _ hin' _ => cases hin.symm.trans hin'
    | swap _ _ hin' _ =>
      rw [hin] at hin'
      injection hin' with hname _ hid
      exact ⟨hname.symm, (Text.ext hid).symm⟩
    | record _ _ _ _ _ _ _ hin' => cases hin.symm.trans hin'
  | record r p accepted clock proposalId decisionId body hin hout _ hname hbody hid =>
    cases h' with
    | point _ hin' _ => cases hin.symm.trans hin'
    | swap _ _ hin' _ => cases hin.symm.trans hin'
    | record r' p' accepted' clock' _ decisionId' body' hin' hout' _ hname' hbody' hid' =>
      rw [hin] at hin'
      injection hin' with hr hp haccepted hclock
      subst hr hp haccepted
      rw [hout] at hout'
      injection hout' with hout'
      injection hout' with _ hdecision
      subst hdecision
      rw [hbody] at hbody'
      cases hbody'
      rw [hid] at hid'
      cases hid'
      exact ⟨hname'.symm.trans hname, rfl⟩

theorem Pointed.aliasCases (h : Pointed name objectId e.before out)
    (hout : e.output = out.1.map fun _ => .pointed) (hafter : e.after = out.2)
    (hpoints : ∀ id : Text, id.str = objectId → e.output = .ok .pointed → Points H name id e) :
    AliasCases H e := by
  rcases h with ⟨x, rfl⟩ | ⟨r, id, db', rfl, hid, -, -, key, hkey, hcurrent⟩
  · refine Or.inl ⟨by rw [hafter], not_moves_error hout⟩
  · refine Or.inr ⟨name, id, key, hpoints id hid hout, hkey, ?_⟩
    rw [hafter]
    exact hcurrent

theorem alias_cases (hv : e.Valid (perform H F)) : AliasCases H e := by
  obtain ⟨i, db, out, db'⟩ := e
  replace hv : perform H F i db = (out, db') := hv
  cases i with
  | put a =>
    refine Or.inl ⟨?_, ?_⟩
    · rcases put_commit (H := H) (F := F) a db with ⟨id, s, h, hput⟩ | ⟨x, h⟩
      · cases hv.symm.trans (Block.bind_ok h)
        exact hput.extends'.aliases
      · cases hv.symm.trans (Block.bind_error h)
        rfl
    · rintro name ⟨id, hpoints⟩
      rcases hpoints with ⟨_, hin⟩ | ⟨_, _, hin⟩ | ⟨_, _, _, _, _, _, _, hin⟩ <;> cases hin
  | link parentId relation childId now =>
    refine Or.inl ⟨?_, ?_⟩
    · rcases Tx.commit_cases (link F parentId relation childId now) db with
        ⟨u, s, hlink, h⟩ | ⟨x, -, h⟩
      · cases hv.symm.trans (Block.bind_ok h)
        exact (link_kept hlink).2
      · cases hv.symm.trans (Block.bind_error h)
        rfl
    · rintro name ⟨id, hpoints⟩
      rcases hpoints with ⟨_, hin⟩ | ⟨_, _, hin⟩ | ⟨_, _, _, _, _, _, _, hin⟩ <;> cases hin
  | point name objectId now =>
    have hrun := hv.symm.trans (Prog.run_map _ (point H F name objectId now) db)
    refine (point_pointed (H := H) (F := F) name objectId now db).aliasCases
      (congrArg Prod.fst hrun) (congrArg Prod.snd hrun) ?_
    rintro id rfl hout
    exact .point now rfl hout
  | pointIfCurrent name expected new now =>
    have hrun := hv.symm.trans (Prog.run_map _ (pointIfCurrent H F name expected new now) db)
    refine (pointIfCurrent_pointed (H := H) (F := F) name expected new now db).aliasCases
      (congrArg Prod.fst hrun) (congrArg Prod.snd hrun) ?_
    rintro id rfl hout
    exact .swap expected now rfl hout
  | record r p accepted clock =>
    obtain ⟨mid, hext, hcases⟩ := record_cases (H := H) (F := F) r p accepted clock db
    rcases hcases with ⟨x, h⟩ | ⟨proposalId, decisionId, h, hdecision⟩ | ⟨proposalId,
      decisionId, row, body, h, hexecute, hname, hbody, -, hid⟩
    · cases hv.symm.trans (Block.bind_error h)
      exact Or.inl ⟨hext.aliases, not_moves_error rfl⟩
    · cases hv.symm.trans (Block.bind_ok h)
      refine Or.inl ⟨hext.aliases, ?_⟩
      rintro name ⟨id, hpoints⟩
      rcases hpoints with ⟨_, hin⟩ | ⟨_, _, hin⟩ | ⟨_, _, _, _, _, _, _, hin, _, hexecute⟩
      · cases hin
      · cases hin
      · cases hin
        exact hdecision hexecute
    · cases hv.symm.trans (Block.bind_ok h)
      refine Or.inr ⟨p.currentName, row.objectId, row.name,
        .record r p accepted clock proposalId decisionId body rfl rfl hexecute rfl hbody hid,
        hname, fun other => ?_⟩
      rw [(wrote_upsert row mid).current other]
      unfold Db.current?
      rw [hext.aliases]

-- == resolving

theorem bound_str (t : Text) : bound t.str = .ok t := by
  unfold bound
  rw [encode_str]
  rfl

theorem resolves_of_current {db : Db τ} (h : Shelved start db) {name : Text}
    (hcurrent : db.current? name = some id) : Resolves db name.str id := by
  obtain ⟨row, hrow, hid⟩ := row_of_has (h.present name id hcurrent)
  obtain ⟨d, hpayload⟩ := h.readable row hrow
  refine ⟨⟨row.objectId, row.kind, d, row.createdAt⟩, ?_, hid⟩
  have hget : db.get id.str = .ok ⟨row.objectId, row.kind, d, row.createdAt⟩ := by
    unfold Db.get
    rw [bound_str, bind_ok_eq, ← hid, Table.find?_of_mem hrow]
    simp only [hpayload]
  unfold Db.resolve
  rw [bound_str, bind_ok_eq, hcurrent]
  exact hget

theorem Shelved.stripped_of_resolves {db : Db τ} (h : Shelved start db)
    (hresolves : Resolves db name id) : strip name = name := by
  obtain ⟨o, ho, -⟩ := hresolves
  obtain ⟨key, id', rfl, hcurrent, -⟩ := resolve_ok ho
  exact h.stripped key id' hcurrent

theorem get_same {db : Db τ} (h : row ∈ db.objects.rows)
    (h' : row ∈ db'.objects.rows) : db'.get row.objectId.str = db.get row.objectId.str := by
  unfold Db.get
  rw [bound_str, bind_ok_eq, bind_ok_eq, Table.find?_of_mem h, Table.find?_of_mem h']

theorem resolve_same {db : Db τ} (hdb : Shelved start db) (h : Shelved db db')
    (hcurrent : ∀ key : Text, key.str = name → db'.current? key = db.current? key) :
    db'.resolve name = db.resolve name := by
  unfold Db.resolve
  cases hkey : bound name with
  | error x => rfl
  | ok key =>
    rw [bind_ok_eq, bind_ok_eq, hcurrent key (encode_eq_ok.mp (bound_ok hkey))]
    cases hid : db.current? key with
    | none => rfl
    | some id =>
      obtain ⟨row, hrow, rfl⟩ := row_of_has (hdb.present key id hid)
      exact get_same hrow (h.kept row hrow)

/-- The strings a run has pointed last name what they were pointed at. -/
def Tracked (H : Host) (past : List (Step τ)) (db : Db τ) : Prop :=
  ∀ name id, past.Since (Points H name id) (Moves H name) →
    ∃ key : Text, key.str = name ∧ db.current? key = some id

/-- The step points no string from which `strip` takes something. -/
def PlainStep (H : Host) (e : Step τ) : Prop := ∀ name id, Points H name id e → strip name = name

theorem tracked_step {past : List (Step τ)} (hv : e.Valid (perform H F))
    (hplain : PlainStep H e) (h : Tracked H past e.before) : Tracked H (past ++ [e]) e.after := by
  intro name id hsince
  rcases alias_cases hv with ⟨haliases, hnone⟩ | ⟨name', id', key', hpoints, hkey', hcurrent⟩
  · rcases List.since_concat.mp hsince with hnow | ⟨-, hpast⟩
    · exact absurd ⟨id, hnow⟩ (hnone name)
    · obtain ⟨key, hkey, hid⟩ := h name id hpast
      refine ⟨key, hkey, ?_⟩
      unfold Db.current?
      rw [haliases]
      exact hid
  · rw [hplain name' id' hpoints] at hkey'
    rcases List.since_concat.mp hsince with hnow | ⟨hmoves, hpast⟩
    · obtain ⟨rfl, rfl⟩ := points_unique hpoints hnow
      exact ⟨key', hkey', by rw [hcurrent, if_pos rfl]⟩
    · obtain ⟨key, hkey, hid⟩ := h name id hpast
      refine ⟨key, hkey, ?_⟩
      rw [hcurrent, if_neg, hid]
      rintro rfl
      exact hmoves ⟨id', by rw [← hkey, hkey']; exact hpoints⟩

theorem leaves_step (hv : e.Valid (perform H F))
    (hplain : PlainStep H e) (hdb : Shelved start e.before)
    (hmoves : ¬ Moves H name e) : Leaves name e := by
  have hafter : Shelved e.before e.after := by
    have hkeeps := perform_shelved (H := H) (F := F) e.before e.input e.before hdb.self
    rw [hv] at hkeeps
    exact hkeeps
  refine resolve_same hdb hafter fun key hkey => ?_
  rcases alias_cases hv with ⟨haliases, -⟩ | ⟨name', id', key', hpoints, hkey', hcurrent⟩
  · unfold Db.current?
    rw [haliases]
  · rw [hcurrent, if_neg]
    rintro rfl
    rw [hplain name' id' hpoints] at hkey'
    exact hmoves ⟨id', by rw [← hkey, hkey']; exact hpoints⟩

theorem record_points (hv : e.Valid (perform H F)) {proposalId decisionId : Text}
    (hin : e.input = .record r p accepted clock)
    (hout : e.output = .ok (.recorded proposalId decisionId (r.evaluate p accepted)))
    (hexecute : (r.evaluate p accepted).decision = .execute) :
    ∃ body id, authorizedBody p decisionId = .ok body ∧ digest H body = some id
      ∧ Points H p.currentName id e := by
  obtain ⟨i, db, out, db'⟩ := e
  cases hin
  cases hout
  obtain ⟨mid, hext, hcases⟩ := record_cases (H := H) (F := F) r p accepted clock db
  rcases hcases with ⟨x, h⟩ | ⟨_, _, h, hdecision⟩ | ⟨proposalId', decisionId', row, body, h, -,
    hname, hbody, -, hid⟩
  · cases Eq.trans (Eq.symm hv) (Block.bind_error h)
  · exact absurd hexecute hdecision
  · cases Eq.trans (Eq.symm hv) (Block.bind_ok h)
    exact ⟨body, row.objectId, hbody, hid,
      .record r p accepted clock proposalId' decisionId' body rfl rfl hexecute rfl hbody hid⟩

theorem recorded_of_returns
    {db : Db τ} (h : (perform H F (.record r p accepted clock) db).1.toOption.isSome = true) :
    ∃ proposalId decisionId, (perform H F (.record r p accepted clock) db).1
      = .ok (.recorded proposalId decisionId (r.evaluate p accepted)) := by
  obtain ⟨mid, -, hcases⟩ := record_cases (H := H) (F := F) r p accepted clock db
  rcases hcases with ⟨x, hrun⟩ | ⟨proposalId, decisionId, hrun, -⟩
    | ⟨proposalId, decisionId, _, _, hrun, -⟩
  · have hraises := congrArg Prod.fst (Block.bind_error hrun
      (f := fun out => pure (Reply.recorded out.1 out.2.1 out.2.2)))
    rw [show (perform H F (.record r p accepted clock) db).1 = _ from hraises] at h
    cases h
  · exact ⟨proposalId, decisionId, congrArg Prod.fst (Block.bind_ok hrun)⟩
  · exact ⟨proposalId, decisionId, congrArg Prod.fst (Block.bind_ok hrun)⟩

section Run

variable {ops : List (Op τ)} {pre post : List (Step τ)} {e : Step τ}

theorem shelved_before (h : Machine.trace (perform H F) ops Db.empty = pre ++ e :: post) :
    e.Valid (perform H F) ∧ Shelved Db.empty e.before := by
  obtain ⟨js, i, ks, rfl, rfl, rfl, -⟩ := Machine.trace_split _ h
  refine ⟨rfl, ?_⟩
  exact Machine.invariant (C := fun _ => True) (perform H F) Db.empty shelved_empty
    (fun e hv _ hdb => by
      have hkeeps := perform_shelved (H := H) (F := F) Db.empty e.input e.before hdb
      rw [hv] at hkeeps
      exact hkeeps) js fun _ _ => trivial

theorem shelved_after (h : Machine.trace (perform H F) ops Db.empty = pre ++ e :: post) :
    Shelved Db.empty e.after := by
  obtain ⟨hv, hdb⟩ := shelved_before h
  have hkeeps := perform_shelved (H := H) (F := F) Db.empty e.input e.before hdb
  rw [hv] at hkeeps
  exact hkeeps

theorem tracked_before (hplain : Plain H F ops)
    (h : Machine.trace (perform H F) ops Db.empty = pre ++ e :: post) : Tracked H pre e.before := by
  have hpre : ∀ e ∈ pre, PlainStep H e := by
    intro e' he'
    exact hplain e' (by rw [h]; exact List.mem_append_left _ he')
  obtain ⟨js, i, ks, rfl, rfl, rfl, -⟩ := Machine.trace_split _ h
  refine Machine.history_invariant (C := PlainStep H) (perform H F) Db.empty ?_
    (fun past e hv hc ht => tracked_step hv hc ht) js hpre
  intro name id hsince
  exact absurd hsince List.not_since_nil

theorem resolves_last (hplain : Plain H F ops)
    (h : Machine.trace (perform H F) ops Db.empty = pre ++ e :: post) (name : PyStr) (id : Text)
    (hsince : (pre ++ [e]).Since (Points H name id) (Moves H name)) : Resolves e.after name id := by
  obtain ⟨hv, -⟩ := shelved_before h
  have hmem : e ∈ Machine.trace (perform H F) ops Db.empty := by
    rw [h]
    exact List.mem_append_right _ (List.mem_cons_self ..)
  obtain ⟨key, rfl, hcurrent⟩ :=
    tracked_step hv (hplain e hmem) (tracked_before hplain h) name id hsince
  exact resolves_of_current (shelved_after h) hcurrent

theorem leaves_other (hplain : Plain H F ops) (he : e ∈ Machine.trace (perform H F) ops Db.empty)
    {name : PyStr} (hmoves : ¬ Moves H name e) : Leaves name e := by
  obtain ⟨pre, post, h⟩ := List.append_of_mem he
  obtain ⟨hv, hdb⟩ := shelved_before h
  exact leaves_step hv (hplain e he) hdb hmoves

theorem aliasesHold (hplain : Plain H F ops) : AliasesHold H F ops where
  resolves _ _ _ h := resolves_last hplain h
  leaves _ he _ := leaves_other hplain he
  promoted e he r p accepted clock proposalId decisionId hin hout hexecute := by
    obtain ⟨pre, post, h⟩ := List.append_of_mem he
    obtain ⟨hv, -⟩ := shelved_before h
    obtain ⟨body, id, hbody, hid, hpoints⟩ := record_points hv hin hout hexecute
    refine ⟨⟨body, id, hbody, hid, ?_⟩, fun objectiveId hne => leaves_other hplain he ?_⟩
    · exact resolves_last hplain h _ _ (List.since_concat.mpr (Or.inl hpoints))
    · rintro ⟨id', hpoints'⟩
      exact hne (List.append_cancel_left (points_unique hpoints hpoints').1)

end Run

/-- The aliases of a run hold exactly if no step of it points an alias string from which
`strip` takes something. -/
theorem aliases_hold (H : Host) (F : Floats τ) (ops : List (Op τ)) :
    AliasesHold H F ops ↔ Plain H F ops := by
  refine ⟨fun hold e he name id hpoints => ?_, aliasesHold⟩
  obtain ⟨pre, post, h⟩ := List.append_of_mem he
  exact (shelved_after h).stripped_of_resolves
    (hold.resolves pre e post h name id (List.since_concat.mpr (Or.inl hpoints)))

section Entry

variable {ι ρ σ : Type} (step : ι → σ → ρ × σ)

theorem second_mem (i j : ι) (s : σ) :
    Machine.entry step j (Machine.exec step [i] s) ∈ Machine.trace step [i, j] s :=
  List.mem_cons_of_mem _ (List.mem_cons_self ..)

end Entry

theorem AliasesHold.second {op : Op τ} {r : Registry} {p : Proposal} {accepted : Bool}
    {clock : Nat → τ} (hold : AliasesHold H F [op, .record r p accepted clock])
    (hreturns : (perform H F (.record r p accepted clock)
      (Machine.exec (perform H F) [op] Db.empty)).1.toOption.isSome = true)
    (hexecute : (r.evaluate p accepted).decision = .execute) {objectiveId : PyStr}
    (hne : objectiveId ≠ p.objectiveId) :
    (Machine.exec (perform H F) [op, .record r p accepted clock] Db.empty).resolve
        (py "objective/current/" ++ objectiveId)
      = (Machine.exec (perform H F) [op] Db.empty).resolve
        (py "objective/current/" ++ objectiveId) := by
  obtain ⟨proposalId, decisionId, hout⟩ := recorded_of_returns hreturns
  have hpromoted := hold.promoted
  obtain ⟨step, hstep⟩ : ∃ step : Op τ → Db τ → Except StoreError Reply × Db τ,
    step = perform H F := ⟨_, rfl⟩
  rw [← hstep] at hpromoted hout ⊢
  exact (hpromoted _ (second_mem step op _ _) r p accepted clock proposalId decisionId rfl hout
    hexecute).2 objectiveId hne

-- == samples

namespace Sample

def proposal (objectiveId : String) : Proposal :=
  ⟨py objectiveId, py "deploy", .owner, py "mail", py "root", none, [], none⟩

/-- Two objectives are recorded; the identifier of the second ends in a space. -/
def ops : List (Op Int) :=
  [.record firstRegistry (proposal "x") true fun n => n,
    .record firstRegistry (proposal "x ") true fun n => 10 + n]

def db (ops : List (Op Int)) : Db Int :=
  Machine.exec (perform (Host.sample fun n => n) Floats.sample) ops Db.empty

def target (db : Db Int) (name : String) : Option Text :=
  (db.resolve (py name)).toOption.map StoredObject.objectId

/-- The second record moves the alias of the first objective and leaves its own unresolved. -/
theorem superseded : (target (db (ops.take 1)) "objective/current/x").isSome = true
    ∧ target (db ops) "objective/current/x" ≠ target (db (ops.take 1)) "objective/current/x"
    ∧ target (db ops) "objective/current/x " = none
    ∧ ¬ AliasesHold (Host.sample fun n => n) Floats.sample ops := by
  -- one evaluation of the operations for all four facts
  obtain ⟨hfirst, hmoved, hgone, hreturns⟩ :
      (target (db (ops.take 1)) "objective/current/x").isSome = true
      ∧ target (db ops) "objective/current/x" ≠ target (db (ops.take 1)) "objective/current/x"
      ∧ target (db ops) "objective/current/x " = none
      ∧ (perform (Host.sample fun n => n) Floats.sample (.record firstRegistry
        (proposal "x ") true fun n => 10 + n) (db (ops.take 1))).1.toOption.isSome = true := by
    decide +kernel
  refine ⟨hfirst, hmoved, hgone, fun hold => hmoved ?_⟩
  have hne : py "x" ≠ (proposal "x ").objectiveId := by decide
  have hleaves := hold.second hreturns (by decide) hne
  exact congrArg (fun found => found.toOption.map StoredObject.objectId) hleaves

end Sample

end Centinal26.Governance.Pointing
