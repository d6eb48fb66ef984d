/-
Aliases under many callers.
-/
import Centinal26.Lib.Interleave
import Centinal26.Objects.Store

namespace Centinal26.Objects

open Py Steps

variable {τ : Type}

-- == callers

/-- The atomic steps. -/
inductive Access (τ : Type) : Type
  | put (a : PutArgs τ)
  | find (objectId : Text)
  | point (name : PyStr) (objectId : Text) (now : τ)
  | swap (name : PyStr) (expected : Option PyStr) (new : PyStr) (now : τ)

inductive Call (τ : Type) : Type
  | put (a : PutArgs τ)
  | point (name objectId : PyStr) (now : τ)
  | pointIfCurrent (name : PyStr) (expected : Option PyStr) (new : PyStr) (now : τ)

abbrev OProg (τ α : Type) := Prog (Access τ) StoreError (Db τ) α

section Programs

variable (H : Host) (F : Floats τ)

/-- The transaction of a step, or its query. -/
def accessTx : Access τ → Update τ Bool
  | .put a => fun db => do
    let out ← put H F a db
    .ok (true, out.2)
  | .find objectId => fun db => .ok (db.has objectId, db)
  | .point name objectId now => fun db => do
    let out ← pointTo F name objectId now db
    .ok (true, out.2)
  | .swap name expected new now => fun db => do
    let out ← swap F name expected new now db
    .ok (true, out.2)

def access (l : Access τ) : OProg τ Bool := Prog.block l ((accessTx H F l).commit)

def pointName (name objectId : PyStr) (now : τ) : OProg τ Bool := do
  let id ← Prog.ofExcept (bound objectId)
  let found ← access H F (.find id)
  if found then access H F (.point name id now)
  else throw (.py (.keyError objectId))

def emptyAlias : StoreError := .py (.valueError "alias may not be empty")

def point (name objectId : PyStr) (now : τ) : OProg τ Bool :=
  if strip name = [] then throw emptyAlias else pointName H F (strip name) objectId now

def pointIfCurrent (name : PyStr) (expected : Option PyStr) (new : PyStr) (now : τ) :
    OProg τ Bool :=
  if strip name = [] then throw emptyAlias
  else access H F (.swap (strip name) expected new now)

def start : Call τ → OProg τ Bool
  | .put a => access H F (.put a)
  | .point name objectId now => point H F name objectId now
  | .pointIfCurrent name expected new now => pointIfCurrent H F name expected new now

end Programs

-- == pools

/-- A call under way, and the steps it has taken. -/
structure Seen (τ : Type) where
  call : Call τ
  steps : List (Db τ × Db τ)

abbrev Procs (τ : Type) := Pool (Access τ) StoreError (Db τ) Bool (Seen τ)

abbrev Step (τ : Type) :=
  Machine.Entry (Sched (Call τ)) (Event (Access τ) StoreError Bool (Seen τ)) (Procs τ)

def track (g : Seen τ) (_ : Access τ) (db db' : Db τ) : Seen τ :=
  ⟨g.call, g.steps ++ [(db, db')]⟩

section Runs

variable (H : Host) (F : Floats τ)

def step : Sched (Call τ) → Procs τ → Event (Access τ) StoreError Bool (Seen τ) × Procs τ :=
  Pool.step (fun _ c => start H F c) (fun _ c _ => ⟨c, []⟩) track fun _ db => db

/-- The callers after a schedule, on a new store. -/
def poolOf (sched : List (Sched (Call τ))) : Procs τ :=
  Machine.exec (step H F) sched (Pool.idle .empty)

def traceOf (sched : List (Sched (Call τ))) : List (Step τ) :=
  Machine.trace (step H F) sched (Pool.idle .empty)

end Runs

def lastOf (history : List (AliasRow τ)) (name : Text) : Option Text :=
  (history.filter fun row => decide (row.name = name)).getLast?.map AliasRow.objectId

/-- The step leaves aliases and history alone. -/
def Untouched (s : Db τ × Db τ) : Prop :=
  s.2.aliases = s.1.aliases ∧ s.2.history = s.1.history

/-- The call has written one row, to the history it found in its last step, and the row is in this
history at that place. -/
def Writes (g : Seen τ) (history pre : List (AliasRow τ)) (row : AliasRow τ) : Prop :=
  ∃ looks db db', g.steps = looks ++ [(db, db')] ∧ (∀ s ∈ looks, Untouched s) ∧ db.history = pre
    ∧ db'.history = pre ++ [row] ∧ pre ++ [row] <+: history

/-- A `point` that returns has moved the alias. -/
def PointIn (g : Seen τ) (history : List (AliasRow τ)) (name objectId : PyStr) : Prop :=
  ∃ pre row, Writes g history pre row ∧ row.name.str = strip name ∧ row.objectId.str = objectId

/-- A compare-and-swap that returns has moved the alias, right after a row for the object it
expects. -/
def SwapIn (g : Seen τ) (history : List (AliasRow τ)) (name : PyStr) (expected : Option PyStr)
    (new : PyStr) : Prop :=
  ∃ pre row, Writes g history pre row ∧ row.name.str = strip name ∧ row.objectId.str = new
    ∧ (lastOf pre row.name).map Text.str = expected

/-- What a call that returns has done. -/
def Recorded (g : Seen τ) (history : List (AliasRow τ)) : Prop :=
  match g.call with
  | .put _ => ∀ s ∈ g.steps, Untouched s
  | .point name objectId _ => PointIn g history name objectId
  | .pointIfCurrent name expected new _ => SwapIn g history name expected new

/-- What is expected of a run. -/
structure Linear (H : Host) (F : Floats τ) (sched : List (Sched (Call τ))) : Prop where
  aliases : ∀ name, (poolOf H F sched).shared.current? name
    = lastOf (poolOf H F sched).shared.history name
  recorded : ∀ e ∈ traceOf H F sched, ∀ i r t,
    e.output = .returned i (.ok r) → e.before.threads i = some t →
    Recorded t.ghost (poolOf H F sched).shared.history
  unchanged : ∀ e ∈ traceOf H F sched, ∀ i x t,
    e.output = .returned i (.error x) → e.before.threads i = some t →
    ∀ s ∈ t.ghost.steps, Untouched s

-- == transactions

variable {H : Host} {F : Floats τ}

/-- An alias is moved: one row, in both tables. -/
structure Wrote (row : AliasRow τ) (db db' : Db τ) : Prop where
  history : db'.history = db.history ++ [row]
  current : ∀ name, db'.current? name
    = if name = row.name then some row.objectId else db.current? name

theorem bound_ok {s : PyStr} {t : Text} (h : bound s = .ok t) : t.str = s := by
  unfold bound at h
  cases henc : encode s with
  | ok u =>
    rw [henc] at h
    cases h
    exact encode_eq_ok.mp henc
  | error e =>
    rw [henc] at h
    cases h

theorem wrote_upsert (row : AliasRow τ) (db : Db τ) :
    Wrote row db ({ db with aliases := db.aliases.upsert row }.record row) where
  history := rfl
  current name := by
    show ((db.aliases.upsert row).find? name).map AliasRow.objectId = _
    rw [Table.find?_upsert]
    split <;> rfl

variable {db db' : Db τ} {name new : PyStr} {now : τ} {expected : Option PyStr} {l : Access τ}
  {g : Seen τ}

theorem wrote_insert {row : AliasRow τ}
    {aliases : Table (AliasRow.name (τ := τ))} (h : db.aliases.insert? row = some aliases) :
    Wrote row db ({ db with aliases := aliases }.record row) where
  history := rfl
  current name := by
    show (aliases.find? name).map AliasRow.objectId = _
    rw [Table.find?_insert h]
    split <;> rfl

variable {u : Unit} {out : Except StoreError Bool × Db τ}

theorem pointTo_wrote {objectId : Text} (h : pointTo F name objectId now db = .ok (u, db')) :
    ∃ row, Wrote row db db' ∧ row.name.str = name ∧ row.objectId = objectId := by
  obtain ⟨text, hname, h⟩ := of_bind_ok h
  obtain ⟨now, -, h⟩ := of_bind_ok h
  split at h
  · cases h
    exact ⟨_, wrote_upsert _ db, bound_ok hname, rfl⟩
  · cases h

theorem swap_wrote (h : swap F name expected new now db = .ok (u, db')) :
    ∃ row, Wrote row db db' ∧ row.name.str = name ∧ row.objectId.str = new
      ∧ (db.current? row.name).map Text.str = expected := by
  obtain ⟨id, hid, h⟩ := of_bind_ok h
  split at h
  · obtain ⟨text, hname, h⟩ := of_bind_ok h
    unfold swapRow at h
    split at h
    · next hexpected =>
      obtain ⟨now, -, h⟩ := of_bind_ok h
      split at h
      · split at h
        · cases h
        · next aliases hins =>
          cases h
          exact ⟨_, wrote_insert hins, bound_ok hname, bound_ok hid, hexpected⟩
      · cases h
        exact ⟨_, wrote_upsert _ db, bound_ok hname, bound_ok hid, hexpected⟩
    · cases h
  · cases h

theorem attest_aliases (db : Db τ) (row : ProvenanceRow τ) :
    (db.attest row).aliases = db.aliases ∧ (db.attest row).history = db.history := by
  unfold Db.attest
  split <;> exact ⟨rfl, rfl⟩

theorem put_untouched {a : PutArgs τ} {id : Text}
    (h : put H F a db = .ok (id, db')) : Untouched (db, db') := by
  unfold put at h
  split at h
  · cases h
  · obtain ⟨body, -, h⟩ := of_bind_ok h
    obtain ⟨hashed, -, h⟩ := of_bind_ok h
    obtain ⟨kind, -, h⟩ := of_bind_ok h
    obtain ⟨sourceType, -, h⟩ := of_bind_ok h
    obtain ⟨sourceRef, -, h⟩ := of_bind_ok h
    obtain ⟨evidenceClass, -, h⟩ := of_bind_ok h
    split at h
    · cases h
      exact ⟨rfl, rfl⟩
    · cases h
      exact attest_aliases _ _

/-- What a step of this kind is to have done where it returns. -/
def Access.Done (l : Access τ) (db db' : Db τ) : Prop :=
  match l with
  | .put _ => Untouched (db, db')
  | .find _ => Untouched (db, db')
  | .point name objectId _ => ∃ row, Wrote row db db' ∧ row.name.str = name
      ∧ row.objectId = objectId
  | .swap name expected new _ => ∃ row, Wrote row db db' ∧ row.name.str = name
      ∧ row.objectId.str = new ∧ (db.current? row.name).map Text.str = expected

/-- What a step does. -/
inductive Did (l : Access τ) (db : Db τ) : Except StoreError Bool × Db τ → Prop
  | raised (e : StoreError) : Did l db (.error e, db)
  | done {r : Bool} {db' : Db τ} (h : l.Done db db') : Did l db (.ok r, db')

theorem Access.Done.cases (h : l.Done db db') : Untouched (db, db') ∨ ∃ row, Wrote row db db' := by
  cases l with
  | put a => exact .inl h
  | find objectId => exact .inl h
  | point name objectId now =>
    obtain ⟨row, hrow, -⟩ := h
    exact .inr ⟨row, hrow⟩
  | swap name expected new now =>
    obtain ⟨row, hrow, -⟩ := h
    exact .inr ⟨row, hrow⟩

theorem access_did (l : Access τ) (db : Db τ) : Did l db ((accessTx H F l).commit db) := by
  rcases Tx.commit_cases (accessTx H F l) db with ⟨r, db', h, hcommit⟩ | ⟨e, -, hcommit⟩
  · rw [hcommit]
    refine .done ?_
    cases l with
    | find objectId =>
      cases h
      exact ⟨rfl, rfl⟩
    | put a =>
      obtain ⟨⟨id, mid⟩, hput, heq⟩ := of_bind_ok h
      cases heq
      exact put_untouched hput
    | point name objectId now =>
      obtain ⟨⟨u, mid⟩, hpoint, heq⟩ := of_bind_ok h
      cases heq
      exact pointTo_wrote hpoint
    | swap name expected new now =>
      obtain ⟨⟨u, mid⟩, hswap, heq⟩ := of_bind_ok h
      cases heq
      exact swap_wrote hswap
  · rw [hcommit]
    exact .raised e

-- == outlines

/-- A call's last step has done this, and those before it nothing. -/
def Last (g : Seen τ) (p : Db τ → Db τ → Prop) : Prop :=
  ∃ looks db db', g.steps = looks ++ [(db, db')] ∧ (∀ s ∈ looks, Untouched s) ∧ p db db'

/-- What a call that returns has done in its last step. -/
def Returned (g : Seen τ) : Prop :=
  match g.call with
  | .put a => Last g (Access.put a).Done
  | .point name objectId now => ∃ id : Text, id.str = objectId
      ∧ Last g (Access.point (strip name) id now).Done
  | .pointIfCurrent name expected new now =>
    Last g (Access.swap (strip name) expected new now).Done

/-- An outline of what is left of a call. -/
abbrev Outlined (H : Host) (F : Floats τ) (p : OProg τ Bool) (g : Seen τ) : Prop :=
  p.Sat (fun _ _ _ => True) (fun _ l db db' => db' = ((accessTx H F l).commit db).2) track
    (fun g _ => Returned g) (fun g _ => ∀ s ∈ g.steps, Untouched s) g

theorem access_outlined (hsteps : ∀ s ∈ g.steps, Untouched s)
    (hdone : ∀ steps, Last ⟨g.call, steps⟩ l.Done → Returned ⟨g.call, steps⟩) :
    Outlined H F (access H F l) g :=
  Prog.Sat.of_block fun db _ => by
    refine ⟨rfl, ?_⟩
    have hdid := access_did (H := H) (F := F) l db
    generalize (accessTx H F l).commit db = out at hdid ⊢
    cases hdid with
    | raised e =>
      intro s hs
      rcases List.mem_append.mp hs with hs | hs
      · exact hsteps s hs
      · obtain rfl := List.mem_singleton.mp hs
        exact ⟨rfl, rfl⟩
    | done h => exact hdone _ ⟨g.steps, db, _, rfl, hsteps, h⟩

theorem outlined_throw {x : StoreError} (h : g.steps = []) :
    Outlined H F (throw x : OProg τ Bool) g := by
  intro s hs
  rw [h] at hs
  cases hs

theorem point_outlined (name objectId : PyStr) (now : τ) :
    Outlined H F (point H F name objectId now) ⟨.point name objectId now, []⟩ := by
  unfold point
  split
  · exact outlined_throw rfl
  · unfold pointName
    cases hid : bound objectId with
    | error e => exact outlined_throw rfl
    | ok id =>
      intro db _
      refine ⟨rfl, ?_⟩
      have huntouched : ∀ s ∈ [(db, db)], Untouched s := by
        intro s hs
        obtain rfl := List.mem_singleton.mp hs
        exact ⟨rfl, rfl⟩
      show Outlined H F (if db.has id then access H F (.point (strip name) id now)
        else throw (.py (.keyError objectId))) ⟨.point name objectId now, [(db, db)]⟩
      split
      · exact access_outlined huntouched fun steps h => ⟨id, bound_ok hid, h⟩
      · exact huntouched

theorem start_outlined (c : Call τ) : Outlined H F (start H F c) ⟨c, []⟩ := by
  have hnil : ∀ s ∈ ([] : List (Db τ × Db τ)), Untouched s := fun _ hs => by cases hs
  cases c with
  | put a => exact access_outlined hnil fun _ h => h
  | point name objectId now => exact point_outlined name objectId now
  | pointIfCurrent name expected new now =>
    show Outlined H F (pointIfCurrent H F name expected new now) _
    unfold pointIfCurrent
    split
    · exact outlined_throw rfl
    · exact access_outlined hnil fun _ h => h

-- == runs

/-- Every alias is the object of its last history row. -/
def Mirrored (db : Db τ) : Prop := ∀ name, db.current? name = lastOf db.history name

theorem lastOf_concat (history : List (AliasRow τ)) (row : AliasRow τ) (name : Text) :
    lastOf (history ++ [row]) name
      = if name = row.name then some row.objectId else lastOf history name := by
  unfold lastOf
  rw [List.filter_append]
  split
  · next h =>
    subst h
    simp
  · next h => simp [Ne.symm h]

theorem Did.mirrored (h : Did l db out) (hdb : Mirrored db) : Mirrored out.2 := by
  cases h with
  | raised e => exact hdb
  | done h =>
    intro name
    rcases h.cases with h | ⟨row, h⟩
    · unfold Db.current?
      rw [h.1, h.2]
      exact hdb name
    · rw [h.current, h.history, lastOf_concat, hdb name]

theorem Did.grows (h : Did l db out) : db.history <+: out.2.history := by
  cases h with
  | raised e => exact List.prefix_refl _
  | done h =>
    rcases h.cases with h | ⟨row, h⟩
    · exact ⟨[], by rw [List.append_nil]; exact h.2.symm⟩
    · rw [h.history]
      exact List.prefix_append ..

/-- What a call has done is in the history. -/
def Kept (g : Seen τ) (db : Db τ) : Prop :=
  ∀ s ∈ g.steps, Mirrored s.1 ∧ s.2.history <+: db.history

structure RunOk (H : Host) (F : Floats τ) (past : List (Step τ)) (p : Procs τ) : Prop where
  outlined : Pool.AllSat track (fun _ _ _ => True)
    (fun _ l db db' => db' = ((accessTx H F l).commit db).2)
    (fun g _ => Returned g) (fun g _ => ∀ s ∈ g.steps, Untouched s) p
  kept : Pool.AllGhosts Kept p
  mirrored : Mirrored p.shared
  recorded : ∀ e ∈ past, ∀ i r t, e.output = .returned i (.ok r) → e.before.threads i = some t →
    Recorded t.ghost p.shared.history
  unchanged : ∀ e ∈ past, ∀ i x t, e.output = .returned i (.error x) → e.before.threads i = some t →
    ∀ s ∈ t.ghost.steps, Untouched s

variable {history history' pre : List (AliasRow τ)} {row : AliasRow τ}

theorem Writes.mono (h : Writes g history pre row) (hle : history <+: history') :
    Writes g history' pre row := by
  obtain ⟨looks, db, db', hsteps, hlooks, hpre, hpost, hin⟩ := h
  exact ⟨looks, db, db', hsteps, hlooks, hpre, hpost, hin.trans hle⟩

theorem Recorded.mono (h : Recorded g history) (hle : history <+: history') :
    Recorded g history' := by
  obtain ⟨call, steps⟩ := g
  cases call with
  | put a => exact h
  | point name objectId now =>
    obtain ⟨pre, row, hwrites, hspec⟩ := h
    exact ⟨pre, row, hwrites.mono hle, hspec⟩
  | pointIfCurrent name expected new now =>
    obtain ⟨pre, row, hwrites, hspec⟩ := h
    exact ⟨pre, row, hwrites.mono hle, hspec⟩

/-- The row of a call's last step is one of the history. -/
theorem Last.writes {p : AliasRow τ → Db τ → Prop} (hkept : Kept g db)
    (h : Last g fun db db' => ∃ row, Wrote row db db' ∧ p row db) :
    ∃ before row, Mirrored before ∧ Writes g db.history before.history row ∧ p row before := by
  obtain ⟨looks, before, after, hsteps, hlooks, row, hwrote, hp⟩ := h
  obtain ⟨hmirrored, hprefix⟩ := hkept (before, after) (by
    rw [hsteps]
    exact List.mem_append_right _ (List.mem_singleton_self _))
  rw [hwrote.history] at hprefix
  exact ⟨before, row, hmirrored,
    ⟨looks, before, after, hsteps, hlooks, rfl, hwrote.history, hprefix⟩, hp⟩

theorem recorded_of_returned (h : Returned g) (hkept : Kept g db) : Recorded g db.history := by
  obtain ⟨call, steps⟩ := g
  cases call with
  | put a =>
    obtain ⟨looks, before, after, hsteps, hlooks, huntouched⟩ := h
    intro s hs
    rw [hsteps] at hs
    rcases List.mem_append.mp hs with hs | hs
    · exact hlooks s hs
    · rw [List.mem_singleton.mp hs]
      exact huntouched
  | point name objectId now =>
    obtain ⟨id, hid, hlast⟩ := h
    obtain ⟨before, row, -, hwrites, hname, hobject⟩ := Last.writes
      (p := fun row _ => row.name.str = strip name ∧ row.objectId = id) hkept hlast
    exact ⟨_, row, hwrites, hname, by rw [hobject, hid]⟩
  | pointIfCurrent name expected new now =>
    obtain ⟨before, row, hmirrored, hwrites, hname, hnew, hexpected⟩ := Last.writes
      (p := fun row db => row.name.str = strip name ∧ row.objectId.str = new
        ∧ (db.current? row.name).map Text.str = expected) hkept h
    rw [hmirrored] at hexpected
    exact ⟨_, row, hwrites, hname, hnew, hexpected⟩

theorem runOk_step {past : List (Step τ)} {e : Step τ} (hv : e.Valid (step H F))
    (h : RunOk H F past e.before) : RunOk H F (past ++ [e]) e.after := by
  have hmeets : Pool.Meets (fun (_ : Seen τ) (_ : Access τ) (_ : Db τ) => True) e :=
    fun _ _ _ _ => trivial
  have hsteps : ∀ i l g, e.output = .stepped i l g →
      Did l e.before.shared ((accessTx H F l).commit e.before.shared)
        ∧ e.after.shared = ((accessTx H F l).commit e.before.shared).2 :=
    fun i l g ho => ⟨access_did l _, Pool.step_guarantee _ _ _ _ hv hmeets h.outlined ho⟩
  have hshared : e.after.shared = e.before.shared
      ∨ ∃ l, Did l e.before.shared ((accessTx H F l).commit e.before.shared)
        ∧ e.after.shared = ((accessTx H F l).commit e.before.shared).2 := by
    by_cases ho : ∃ i l g, e.output = .stepped i l g
    · obtain ⟨i, l, g, ho⟩ := ho
      exact Or.inr ⟨l, hsteps i l g ho⟩
    · have hquiet : ∀ i l g, e.output ≠ .stepped i l g :=
        fun i l g heq => ho ⟨i, l, g, heq⟩
      rcases Pool.shared_of_quiet _ _ _ _ hv hquiet with hs | ⟨i, hs⟩
      · exact Or.inl hs
      · exact Or.inl hs
  have hgrows : e.before.shared.history <+: e.after.shared.history := by
    rcases hshared with hs | ⟨l, hdid, hs⟩
    · exact ⟨[], by rw [List.append_nil, hs]⟩
    · rw [hs]
      exact hdid.grows
  exact
    { outlined := Pool.sat_step _ _ _ _ (fun _ c _ => start_outlined c) hv hmeets h.outlined
      kept := by
        refine Pool.ghosts_step _ _ _ _ hv nofun (fun i l g ho hg s hs => ?_)
          (fun g hg s hs => ⟨(hg s hs).1, (hg s hs).2.trans hgrows⟩) h.kept
        rcases List.mem_append.mp hs with hs | hs
        · exact ⟨(hg s hs).1, (hg s hs).2.trans hgrows⟩
        · obtain rfl := List.mem_singleton.mp hs
          exact ⟨h.mirrored, List.prefix_refl _⟩
      mirrored := by
        rcases hshared with hs | ⟨l, hdid, hs⟩
        · rw [hs]
          exact h.mirrored
        · rw [hs]
          exact hdid.mirrored h.mirrored
      recorded := by
        intro e' he' i r t ho ht
        rcases List.mem_append.mp he' with he' | he'
        · exact (h.recorded e' he' i r t ho ht).mono hgrows
        · obtain rfl := List.mem_singleton.mp he'
          obtain ⟨t', ht', hout⟩ := Pool.outcome_of_returned _ _ _ _ hv h.outlined ho
          rw [ht] at ht'
          cases ht'
          exact (recorded_of_returned hout (h.kept i t ht)).mono hgrows
      unchanged := by
        intro e' he' i x t ho ht
        rcases List.mem_append.mp he' with he' | he'
        · exact h.unchanged e' he' i x t ho ht
        · obtain rfl := List.mem_singleton.mp he'
          obtain ⟨t', ht', hout⟩ := Pool.outcome_of_returned _ _ _ _ hv h.outlined ho
          rw [ht] at ht'
          cases ht'
          exact hout }

/-- In every run an alias is the object of its last history row; each call that returns has written
its own row, a compare-and-swap right after a row for what it expects; and a call that raises has
changed neither aliases nor history. -/
theorem aliases_linear (H : Host) (F : Floats τ) (sched : List (Sched (Call τ))) :
    Linear H F sched := by
  have hrun := Machine.history_invariant (step H F) (C := fun _ => True)
    (I := RunOk H F) (Pool.idle .empty) ?_ (fun past e hv _ h => runOk_step hv h) sched
    fun _ _ => trivial
  · exact ⟨hrun.mirrored, hrun.recorded, hrun.unchanged⟩
  · exact
      { outlined := Pool.allSat_idle _ _
        kept := Pool.allGhosts_idle _
        mirrored := fun _ => rfl
        recorded := fun _ he => by cases he
        unchanged := fun _ he => by cases he }

end Centinal26.Objects
