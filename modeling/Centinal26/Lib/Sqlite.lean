/-
Connections to one SQLite database file in WAL mode, as far as transactions
go.
-/
import Mathlib.Logic.Basic

/-- The committed image and the open write transaction: whose it is, and the
image it has built so far. -/
structure Disk (Db : Type) where
  file : Db
  tx : Option (Nat × Db)

namespace Disk

variable {Db : Type}

/-- What a connection reads: its own pending image, or the file. -/
def view (d : Disk Db) (me : Nat) : Db :=
  match d.tx with
  | none => d.file
  | some (c, db) => if c = me then db else d.file

/-- Another connection holds the write lock. -/
def lockedFor (d : Disk Db) (me : Nat) : Bool :=
  match d.tx with
  | none => false
  | some (c, _) => decide (c ≠ me)

/-- A statement that writes, by the holder of the lock or with the lock
free: the image it reads, rewritten, is pending. -/
def write (d : Disk Db) (me : Nat) (f : Db → Db) : Disk Db :=
  { d with tx := some (me, f (d.view me)) }

def commit (d : Disk Db) (me : Nat) : Disk Db :=
  match d.tx with
  | none => d
  | some (c, db) => if c = me then ⟨db, none⟩ else d

def rollback (d : Disk Db) (me : Nat) : Disk Db :=
  match d.tx with
  | none => d
  | some (c, _) => if c = me then ⟨d.file, none⟩ else d

/-- Nothing is pending, or what is pending is one's own. -/
def OwnedBy (d : Disk Db) (me : Nat) : Prop := d.lockedFor me = false

/-- A property of every image on the disk: the committed one and, when a
transaction is open, the pending one. -/
structure Every (I : Db → Prop) (d : Disk Db) : Prop where
  file : I d.file
  tx : ∀ c db, d.tx = some (c, db) → I db

-- == small lemmas

@[simp] theorem view_mk_none (db : Db) (me : Nat) : (⟨db, none⟩ : Disk Db).view me = db := rfl

@[simp] theorem view_mk_some (db db' : Db) (me : Nat) :
    (⟨db, some (me, db')⟩ : Disk Db).view me = db' := by
  simp [view]

@[simp] theorem view_write (d : Disk Db) (me : Nat) (f : Db → Db) :
    (d.write me f).view me = f (d.view me) := by
  simp [view, write]

variable {d : Disk Db} {me : Nat} {db : Db} {I : Db → Prop}

theorem ownedBy_of_tx (h : d.tx = some (me, db)) : d.OwnedBy me := by
  simp [OwnedBy, lockedFor, h]

theorem ownedBy_write (d : Disk Db) (me : Nat) (f : Db → Db) : (d.write me f).OwnedBy me := by
  simp [OwnedBy, lockedFor, write]

theorem ownedBy_mk_none (db : Db) (me : Nat) : (⟨db, none⟩ : Disk Db).OwnedBy me := rfl

theorem ownedBy_mk_some (db db' : Db) (me : Nat) : (⟨db, some (me, db')⟩ : Disk Db).OwnedBy me := by
  simp [OwnedBy, lockedFor]

@[simp] theorem write_write (d : Disk Db) (me : Nat) (f g : Db → Db) :
    (d.write me f).write me g = d.write me fun db => g (f db) := by
  simp [write, view]

@[simp] theorem commit_write (d : Disk Db) (me : Nat) (f : Db → Db) :
    (d.write me f).commit me = ⟨f (d.view me), none⟩ := by
  simp [commit, write]

theorem commit_eq (h : d.OwnedBy me) : d.commit me = ⟨d.view me, none⟩ := by
  obtain ⟨file, tx⟩ := d
  cases tx with
  | none => rfl
  | some t =>
    obtain ⟨c, db⟩ := t
    have hc : c = me := by simpa [OwnedBy, lockedFor] using h
    simp [commit, view, hc]

theorem rollback_eq (h : d.OwnedBy me) : d.rollback me = ⟨d.file, none⟩ := by
  obtain ⟨file, tx⟩ := d
  cases tx with
  | none => rfl
  | some t =>
    obtain ⟨c, db⟩ := t
    have hc : c = me := by simpa [OwnedBy, lockedFor] using h
    simp [rollback, hc]

theorem Every.view (h : d.Every I) (me : Nat) : I (d.view me) := by
  unfold Disk.view
  split
  · exact h.file
  · next c db htx =>
    split
    · exact h.tx c db htx
    · exact h.file

theorem Every.imp {J : Db → Prop} (h : d.Every I) (hij : ∀ db, I db → J db) : d.Every J :=
  ⟨hij _ h.file, fun c db htx => hij _ (h.tx c db htx)⟩

theorem Every.and {J : Db → Prop} (h : d.Every I)
    (h' : d.Every J) : d.Every fun db => I db ∧ J db :=
  ⟨⟨h.file, h'.file⟩, fun c db htx => ⟨h.tx c db htx, h'.tx c db htx⟩⟩

theorem every_mk_none (h : I db) : (⟨db, none⟩ : Disk Db).Every I :=
  ⟨h, fun _ _ h => by cases h⟩

theorem every_mk_some {db' : Db} (h : I db)
    (h' : I db') : (⟨db, some (me, db')⟩ : Disk Db).Every I :=
  ⟨h, fun _ _ heq => by cases heq; exact h'⟩

-- == steps

/-- What one step of connection `me` does to the disk, where `I` relates the
image it reads to the image it makes: nothing, an image left pending, an
image published, or the pending image dropped. -/
inductive Step (me : Nat) (I : Db → Db → Prop) (d : Disk Db) : Disk Db → Prop
  | none : Step me I d d
  | pending {db : Db} (ho : d.OwnedBy me) (hI : I (d.view me) db) :
      Step me I d ⟨d.file, some (me, db)⟩
  | published {db : Db} (ho : d.OwnedBy me) (hI : I (d.view me) db) : Step me I d ⟨db, Option.none⟩
  | dropped (ho : d.OwnedBy me) : Step me I d ⟨d.file, Option.none⟩

/-- The pending image is one the file relates to. -/
def Ahead (R : Db → Db → Prop) (d : Disk Db) : Prop :=
  ∀ c db, d.tx = some (c, db) → R d.file db

section Steps

variable {me : Nat} {I R : Db → Db → Prop} {d d' : Disk Db}

theorem Step.eq_of_locked (h : Step me I d d') (hl : d.lockedFor me = true) : d' = d := by
  have hno : ¬ d.OwnedBy me := fun ho => by
    rw [OwnedBy, hl] at ho
    cases ho
  cases h with
  | none => rfl
  | pending ho _ => exact absurd ho hno
  | published ho _ => exact absurd ho hno
  | dropped ho => exact absurd ho hno

theorem step_write {f : Db → Db} (ho : d.OwnedBy me)
    (hI : I (d.view me) (f (d.view me))) : Step me I d (d.write me f) :=
  .pending ho hI

theorem step_commit (hI : I (d.view me) (d.view me)) : Step me I d (d.commit me) := by
  obtain ⟨file, tx⟩ := d
  cases tx with
  | none => exact .none
  | some t =>
    obtain ⟨c, db⟩ := t
    show Step me I _ (if c = me then _ else _)
    split
    · next hc =>
      subst hc
      have hstep := Step.published (I := I) (ownedBy_mk_some file db c) hI
      rwa [view_mk_some] at hstep
    · exact .none

theorem step_rollback : Step me I d (d.rollback me) := by
  obtain ⟨file, tx⟩ := d
  cases tx with
  | none => exact .none
  | some t =>
    obtain ⟨c, db⟩ := t
    show Step me I _ (if c = me then _ else _)
    split
    · next hc =>
      subst hc
      exact .dropped (ownedBy_mk_some file db c)
    · exact .none

/-- A property of every image is kept by a step that makes its image from the
one it reads. -/
theorem Step.every {P : Db → Prop} (h : Step me I d d') (hd : d.Every P)
    (hP : ∀ db, I (d.view me) db → P db) : d'.Every P := by
  cases h with
  | none => exact hd
  | pending _ hI => exact every_mk_some hd.file (hP _ hI)
  | published _ hI => exact every_mk_none (hP _ hI)
  | dropped _ => exact every_mk_none hd.file

theorem Ahead.view (hrefl : ∀ db, R db db) (h : d.Ahead R) (me : Nat) : R d.file (d.view me) := by
  unfold Disk.view
  split
  · exact hrefl _
  · next c db htx =>
    split
    · exact h c db htx
    · exact hrefl _

/-- Where every image made relates to the one it was made from, the pending
image stays ahead of the file, and the file moves forward. -/
theorem Step.ahead (hrefl : ∀ db, R db db)
    (htrans : ∀ a b c, R a b → R b c → R a c) (h : Step me I d d')
    (hd : d.Ahead R) (hR : ∀ db, I (d.view me) db → R (d.view me) db) :
    d'.Ahead R ∧ R d.file d'.file := by
  cases h with
  | none => exact ⟨hd, hrefl _⟩
  | pending _ hI =>
    refine ⟨fun c db heq => ?_, hrefl _⟩
    cases heq
    exact htrans _ _ _ (hd.view hrefl me) (hR _ hI)
  | published _ hI =>
    refine ⟨fun c db heq => ?_, htrans _ _ _ (hd.view hrefl me) (hR _ hI)⟩
    cases heq
  | dropped _ =>
    refine ⟨fun c db heq => ?_, hrefl _⟩
    cases heq

end Steps

end Disk
