/-
What holds of every store that calls have been made on: the receipts are the lines of
the index, every receipt's object is there, and receipts that share an identity share
their content.
-/
import Centinal26.Export.Preserve

namespace Centinal26.Export

open Py

-- == dictionaries

section Items

variable {β : Type}

variable {d : List (PyStr × β)} {k : PyStr}

theorem not_mem_of_getItem? (h : getItem? d k = none) {m : PyStr × β} (hm : m ∈ d) : m.1 ≠ k := by
  induction d with
  | nil => cases hm
  | cons n rest ih =>
    rw [getItem?_cons] at h
    split at h
    · cases h
    · next hk =>
      rcases List.mem_cons.mp hm with rfl | hm
      · exact hk
      · exact ih h hm

theorem mem_of_getItem? {v : β} (h : getItem? d k = some v) : (k, v) ∈ d := by
  induction d with
  | nil => cases h
  | cons n rest ih =>
    rw [getItem?_cons] at h
    split at h
    · next hk =>
      cases h
      rw [← hk]
      exact List.mem_cons_self ..
    · exact List.mem_cons_of_mem _ (ih h)

end Items

-- == texts

theorem objectRelpath_injective {a b : Hex} (h : objectRelpath a = objectRelpath b) : a = b := by
  have hdrop := congrArg (List.drop 18) h
  have hrest : ∀ x : Hex, (objectRelpath x).drop 18 = x.str := by
    intro x
    obtain ⟨s, hlength, hdigits⟩ := x
    match s, hlength with
    | c :: d :: rest, _ => rfl
  rw [hrest, hrest] at hdrop
  cases a
  cases b
  cases hdrop
  rfl

theorem components_slash {s r : PyStr} (h : 47 ∉ s) :
    components (s ++ 47 :: r) = s :: components r := by
  induction s with
  | nil => rfl
  | cons c s ih =>
    rw [List.mem_cons, not_or] at h
    rw [List.cons_append, components, if_neg (Ne.symm h.1), ih h.2]

theorem components_last {s : PyStr} (h : 47 ∉ s) : components s = [s] := by
  induction s with
  | nil => rfl
  | cons c s ih =>
    rw [List.mem_cons, not_or] at h
    rw [components, if_neg (Ne.symm h.1), ih h.2]

theorem Hex.not_mem {x : Hex} {c : Nat} (hc : c < 48) {n : Nat} : c ∉ x.str.take n := by
  intro hmem
  have := x.digits c (List.mem_of_mem_take hmem)
  omega

theorem objectPath?_objectRelpath (x : Hex) :
    objectPath? (objectRelpath x) = some (objectRelpath x) := by
  have hshort : (x.str.take 2).length = 2 := by
    rw [List.length_take, x.length]
    rfl
  have hplain : ∀ s : PyStr, s.length = 2 ∨ s.length = 64 → (46 ∉ s) →
      s ≠ [] ∧ s ≠ py "." ∧ s ≠ py ".." := by
    intro s hlength hdot
    refine ⟨?_, ?_, ?_⟩
    · rintro rfl
      rcases hlength with h | h <;> cases h
    · rintro rfl
      exact hdot (by decide)
    · rintro rfl
      exact hdot (by decide)
  have hall : x.str.take 64 = x.str := List.take_of_length_le (by rw [x.length])
  have hslash : 47 ∉ x.str := hall ▸ Hex.not_mem (by decide)
  have hfirst := hplain (x.str.take 2) (Or.inl hshort) (Hex.not_mem (by decide))
  have hlast := hplain x.str (Or.inr x.length) (hall ▸ Hex.not_mem (by decide))
  have hcomponents : components (objectRelpath x)
      = [py "objects", py "sha256", x.str.take 2, x.str] := by
    have hpath : objectRelpath x
        = py "objects" ++ 47 :: (py "sha256" ++ 47 :: (x.str.take 2 ++ 47 :: x.str)) := by
      show py "objects/sha256/" ++ x.str.take 2 ++ [47] ++ x.str = _
      simp only [List.append_assoc]
      rfl
    rw [hpath, components_slash (by decide), components_slash (by decide),
      components_slash (Hex.not_mem (by decide)), components_last hslash]
  have hresolve : resolve [] [py "objects", py "sha256", x.str.take 2, x.str]
      = some [py "objects", py "sha256", x.str.take 2, x.str] := by
    simp only [resolve, if_neg (not_or.mpr ⟨hfirst.1, hfirst.2.1⟩), if_neg hfirst.2.2,
      if_neg (not_or.mpr ⟨hlast.1, hlast.2.1⟩), if_neg hlast.2.2]
    rfl
  have hhead : (objectRelpath x).head? ≠ some 47 := by
    intro h
    exact absurd (Option.some.inj h) (by decide)
  have hroot : py "objects/sha256/" = py "objects" ++ (py "/" ++ (py "sha256" ++ py "/")) := rfl
  unfold objectPath?
  rw [if_neg hhead, hcomponents, hresolve]
  show (if some (py "objects") = some (py "objects") then _ else _) = _
  rw [if_pos rfl, objectRelpath, hroot]
  simp only [joinWith, List.append_assoc]

-- == receipts

theorem ordered_of_names {α : Type} {ms : List (PyStr × α)} (names : List PyStr)
    (hnames : ms.map Prod.fst = names) (h : names.Pairwise (· < ·)) : Ordered ms := by
  unfold Ordered
  rw [hnames]
  exact h

@[simp] theorem isNormal_optional (o : Option PyStr) : (optional o).isNormal = true := by
  cases o <;> rfl

section Receipts

variable (toFloat : PyStr → PyFloat)

@[simp] theorem readsFloats_optional (o : Option PyStr) : (optional o).ReadsFloats toFloat := by
  cases o <;> exact trivial

theorem Receipt.scannable {r : Receipt} (h : (Json.obj r.members).isShort = true) :
    (Json.obj r.members).Scannable toFloat := by
  have hcontent : Ordered [(py "object_relpath", Json.str (objectRelpath r.sha256)),
      (py "raw_preserved_unextracted", .bool true), (py "sha256", .str r.sha256.str),
      (py "size", .int r.size)] :=
    ordered_of_names [py "object_relpath", py "raw_preserved_unextracted", py "sha256",
      py "size"] rfl (by decide)
  have hidentity : Ordered [(py "export_id", optional r.exportId),
      (py "message_id", optional r.messageId)] :=
    ordered_of_names [py "export_id", py "message_id"] rfl (by decide)
  have hmetadata : Ordered [(py "ingested_at", Json.str r.ingestedAt),
      (py "message_date", optional r.messageDate),
      (py "original_filename", .str r.originalFilename),
      (py "retrieved_at", .str r.retrievedAt), (py "subject", optional r.subject)] :=
    ordered_of_names [py "ingested_at", py "message_date", py "original_filename",
      py "retrieved_at", py "subject"] rfl (by decide)
  have hall : Ordered r.members :=
    ordered_of_names [py "content", py "provider", py "receipt_id", py "schema",
      py "source_identity", py "source_metadata"] rfl (by decide)
  refine ⟨?_, h, ?_⟩
  · rw [Json.isNormal, Bool.and_eq_true, decide_eq_true_eq]
    refine ⟨hall, ?_⟩
    simp [Receipt.members, allNormalMembers, Json.isNormal, hcontent, hidentity, hmetadata]
  · simp [Receipt.members, Json.ReadsFloats, MembersReadFloats]

theorem load_line {r : Receipt} (h : (Json.obj r.members).isShort = true)
    (invalid : EvidenceError) :
    TextFile.load toFloat ⟨r.line, false⟩ invalid = .ok (.obj r.members) := by
  unfold TextFile.load Receipt.line
  rw [if_neg (by simp), loadsText_text toFloat (Receipt.scannable toFloat h) (Or.inr rfl)]

theorem loadReceipt_line {r : Receipt} (h : (Json.obj r.members).isShort = true) :
    loadReceipt toFloat ⟨r.line, false⟩ = .ok r.members := by
  unfold loadReceipt
  rw [load_line toFloat h]
  have hschema : (field r.members "schema").isStr schema = true := by
    show decide (schema = schema) = true
    simp
  simp only [bind_ok_eq, mapping, hschema, if_true]

end Receipts

theorem Hex.str_inj {a b : Hex} : a.str = b.str ↔ a = b := by
  constructor
  · intro h
    cases a
    cases b
    cases h
    rfl
  · rintro rfl
    rfl

theorem optional_injective {a b : Option PyStr} (h : optional a = optional b) : a = b := by
  cases a <;> cases b <;> cases h <;> rfl

theorem Receipt.line_injective {r r' : Receipt} (h : r.line = r'.line) : r = r' := by
  have htext := text_injective (List.append_cancel_right h)
  simp only [Receipt.members, Json.obj.injEq, List.cons.injEq, Prod.mk.injEq, Json.str.injEq,
    Json.int.injEq, true_and, and_true, Int.natCast_inj, Hex.str_inj] at htext
  obtain ⟨⟨-, hsha, hsize⟩, hprovider, hid, ⟨hexport, hmessage⟩, hingested, hdate, hname,
    hretrieved, hsubject⟩ := htext
  cases r
  cases r'
  simp only at hsha hsize hprovider hid hexport hmessage hingested hdate hname hretrieved hsubject
  subst hsha hsize hprovider hid hingested hname hretrieved
  rw [optional_injective hexport, optional_injective hmessage, optional_injective hdate,
    optional_injective hsubject]

/-- The receipts' identities name one source: an id that is there is the same. -/
def SharesIdentity (provider provider' : PyStr) (messageId messageId' : Option PyStr)
    (exportId exportId' : Option PyStr) : Prop :=
  provider = provider' ∧ ((∃ m, messageId = some m ∧ messageId' = some m)
      ∨ ∃ e, exportId = some e ∧ exportId' = some e)

theorem isStr_optional (o : Option PyStr) (s : PyStr) :
    (optional o).isStr s = decide (o = some s) := by
  cases o with
  | none => rfl
  | some t =>
    show decide (t = s) = _
    simp

theorem members_identity (r : Receipt) : orEmpty (field r.members "source_identity")
    = .ok [(py "export_id", optional r.exportId), (py "message_id", optional r.messageId)] :=
  rfl

theorem sameId_members {members identity : Members} {o : Option PyStr} (id : Option PyStr)
    (key : String)
    (hidentity : orEmpty (field members "source_identity") = .ok identity)
    (hkey : field identity key = optional o) :
    ∃ b, sameId members id key = .ok b ∧ (b = true ↔ ∃ s, o = some s ∧ id = some s) := by
  cases id with
  | none => exact ⟨false, rfl, by simp⟩
  | some s =>
    refine ⟨_, by rw [sameId, hidentity, bind_ok_eq, hkey, isStr_optional], ?_⟩
    simp

theorem strongIdentityConflict_members (r : Receipt) (provider : PyStr)
    (messageId exportId : Option PyStr) (sha256 : Hex) :
    ∃ b, strongIdentityConflict r.members provider messageId exportId sha256.str = .ok b
      ∧ (b = true ↔ SharesIdentity r.provider provider r.messageId messageId r.exportId
          exportId ∧ r.sha256 ≠ sha256) := by
  have hprovider : field r.members "provider" = .str r.provider := rfl
  have hcontent : orEmpty (field r.members "content") = .ok [
      (py "object_relpath", .str (objectRelpath r.sha256)),
      (py "raw_preserved_unextracted", .bool true), (py "sha256", .str r.sha256.str),
      (py "size", .int r.size)] := rfl
  have hkey : (field [(py "object_relpath", Json.str (objectRelpath r.sha256)),
      (py "raw_preserved_unextracted", .bool true), (py "sha256", .str r.sha256.str),
      (py "size", .int r.size)] "sha256").isStr sha256.str
      = decide (r.sha256 = sha256) := by
    show decide (r.sha256.str = sha256.str) = _
    simp only [Hex.str_inj]
  obtain ⟨bm, hm, hbm⟩ := sameId_members (o := r.messageId) messageId
    "message_id" (members_identity r) rfl
  obtain ⟨be, he, hbe⟩ := sameId_members (o := r.exportId) exportId
    "export_id" (members_identity r) rfl
  unfold strongIdentityConflict SharesIdentity
  rw [hprovider, Json.isStr_str, hm, he, ← hbm, ← hbe, hcontent]
  simp only [bind_ok_eq, hkey]
  by_cases hp : r.provider = provider
  · by_cases hs : r.sha256 = sha256 <;> cases bm <;> cases be <;> simp [hp, hs]
  · simp [hp]

-- == the checks

def Stored (s : Store) (r : Receipt) : Prop := (r.id.str, ⟨r.line, false⟩) ∈ s.receipts

/-- The source a call names is one the receipt has other content for. -/
def Conflicts (r : Receipt) (c : Call) (sha256 : Hex) : Prop :=
  SharesIdentity r.provider (strStrip c.provider) r.messageId (normalizeOptional c.messageId)
      r.exportId (normalizeOptional c.exportId)
    ∧ r.sha256 ≠ sha256

/-- The receipts are files that read back. -/
def Readable (s : Store) : Prop :=
  ∀ e ∈ s.receipts, ∃ r : Receipt, e = (r.id.str, ⟨r.line, false⟩)
    ∧ (Json.obj r.members).isShort = true

section Checks

variable (toFloat : PyStr → PyFloat)

theorem checkReceipts_spec (c : Call) (sha256 : Hex) {es : List (PyStr × TextFile)}
    (h : ∀ e ∈ es, ∃ r : Receipt, e = (r.id.str, ⟨r.line, false⟩)
      ∧ (Json.obj r.members).isShort = true) :
    let result := checkReceipts toFloat (strStrip c.provider) (normalizeOptional c.messageId)
      (normalizeOptional c.exportId) sha256.str es
    (result = .ok () ∧ ∀ r : Receipt, (r.id.str, ⟨r.line, false⟩) ∈ es → ¬ Conflicts r c sha256)
      ∨ result = .error .sourceIdentityConflict
        ∧ ∃ r : Receipt, (r.id.str, ⟨r.line, false⟩) ∈ es ∧ Conflicts r c sha256 := by
  induction es with
  | nil => exact Or.inl ⟨rfl, nofun⟩
  | cons e rest ih =>
    obtain ⟨r, rfl, hshort⟩ := h e (List.mem_cons_self ..)
    obtain ⟨b, hb, hconflict⟩ := strongIdentityConflict_members r (strStrip c.provider)
      (normalizeOptional c.messageId) (normalizeOptional c.exportId) sha256
    have hload := loadReceipt_line toFloat hshort
    simp only [checkReceipts, hload, hb, bind_ok_eq]
    cases b with
    | true =>
      exact Or.inr ⟨rfl, r, List.mem_cons_self .., hconflict.mp rfl⟩
    | false =>
      have hnot : ¬ Conflicts r c sha256 := fun hc => by
        have := hconflict.mpr hc
        cases this
      rcases ih fun e he => h e (List.mem_cons_of_mem _ he) with ⟨hok, hnone⟩ | ⟨herr, r', hr', hc⟩
      · refine Or.inl ⟨hok, fun r' hr' => ?_⟩
        rcases List.mem_cons.mp hr' with heq | hr'
        · have hsame : r' = r :=
            Receipt.line_injective (congrArg (fun e : PyStr × TextFile => e.2.text) heq)
          rw [hsame]
          exact hnot
        · exact hnone r' hr'
      · exact Or.inr ⟨herr, r', List.mem_cons_of_mem _ hr', hc⟩

theorem checkReceipts_readable {s : Store} (h : Readable s) (c : Call) (sha256 : Hex) :
    let result := checkReceipts toFloat (strStrip c.provider) (normalizeOptional c.messageId)
      (normalizeOptional c.exportId) sha256.str (sortByName s.receipts)
    (result = .ok () ∧ ∀ r, Stored s r → ¬ Conflicts r c sha256)
      ∨ result = .error .sourceIdentityConflict ∧ ∃ r, Stored s r ∧ Conflicts r c sha256 := by
  have hlisted : ∀ e ∈ sortByName s.receipts, ∃ r : Receipt, e = (r.id.str, ⟨r.line, false⟩)
      ∧ (Json.obj r.members).isShort = true := fun e he => h e (mem_sortByName.mp he)
  have hsorted := checkReceipts_spec toFloat c sha256 hlisted
  simp only [mem_sortByName] at hsorted
  exact hsorted

end Checks

-- == invariant

section Invariant

variable (D : Digests)

/-- What the calls have made of a store. -/
structure Sound (s : Store) : Prop where
  /-- every receipt reads back -/
  readable : Readable s
  /-- its object is there, with its content -/
  kept : ∀ r, Stored s r → ∃ bytes, s.object? (objectRelpath r.sha256) = some bytes
    ∧ D.ofBytes bytes = r.sha256 ∧ bytes.length = r.size
  /-- the index is the receipts' lines -/
  indexed : ∀ f, f ∈ s.index ↔ ∃ r, Stored s r ∧ f = ⟨r.line, false⟩
  /-- an object has the content it is named by -/
  addressed : ∀ sha256 bytes, s.object? (objectRelpath sha256) = some bytes →
    D.ofBytes bytes = sha256
  /-- receipts that share an identity share their content -/
  bound : ∀ r r', Stored s r → Stored s r' →
    SharesIdentity r.provider r'.provider r.messageId r'.messageId r.exportId r'.exportId →
    r.sha256 = r'.sha256

theorem Sound.empty : Sound D .empty where
  readable := nofun
  kept := nofun
  indexed := fun f => ⟨nofun, fun ⟨r, hr, _⟩ => (by cases hr)⟩
  addressed := nofun
  bound := nofun

theorem Sound.addObject {s : Store} (h : Sound D s) {sha256 : Hex} {bytes : Bytes}
    (hnew : s.object? (objectRelpath sha256) = none) (hbytes : D.ofBytes bytes = sha256) :
    Sound D (s.apply (.object (objectRelpath sha256) bytes)) where
  readable := h.readable
  kept := by
    intro r hr
    obtain ⟨b, hb, hrest⟩ := h.kept r hr
    refine ⟨b, ?_, hrest⟩
    show getItem? (setItem s.objects _ _) _ = _
    rw [getItem?_setItem]
    split
    · next heq =>
      unfold Store.object? at hnew hb
      rw [← heq, hb] at hnew
      cases hnew
    · exact hb
  indexed := h.indexed
  addressed := by
    intro x b hb
    change getItem? (setItem s.objects _ _) _ = _ at hb
    rw [getItem?_setItem] at hb
    split at hb
    · next heq =>
      cases hb
      rw [hbytes]
      exact (objectRelpath_injective heq).symm
    · exact h.addressed x b hb
  bound := h.bound

/-- A receipt that is not there yet, of an object that is, and of a source no other
receipt has other content for. -/
theorem Sound.addReceipt {s : Store} (h : Sound D s) {r : Receipt}
    (hnew : s.receipt? r.id.str = none) (hshort : (Json.obj r.members).isShort = true)
    (hobject : ∃ bytes, s.object? (objectRelpath r.sha256) = some bytes
      ∧ D.ofBytes bytes = r.sha256 ∧ bytes.length = r.size) (hbound : ∀ r', Stored s r' →
      SharesIdentity r'.provider r.provider r'.messageId r.messageId r'.exportId r.exportId →
      r'.sha256 = r.sha256) :
    Sound D ((s.apply (.receipt r.id.str r.line)).apply (.index r.line)) := by
  have hstored : ∀ r', Stored ((s.apply (.receipt r.id.str r.line)).apply (.index r.line)) r'
      ↔ Stored s r' ∨ r' = r := by
    intro r'
    show _ ∈ setItem s.receipts _ _ ↔ _
    rw [setItem_new hnew, List.mem_append, List.mem_singleton]
    refine or_congr_right ⟨fun heq => ?_, fun heq => by rw [heq]⟩
    exact Receipt.line_injective (congrArg (fun e : PyStr × TextFile => e.2.text) heq)
  have hsymm : ∀ {p p' : PyStr} {m m' e e' : Option PyStr},
      SharesIdentity p p' m m' e e' → SharesIdentity p' p m' m e' e := by
    intro p p' m m' e e' hs
    obtain ⟨hp, hm | he⟩ := hs
    · obtain ⟨x, hx, hx'⟩ := hm
      exact ⟨hp.symm, Or.inl ⟨x, hx', hx⟩⟩
    · obtain ⟨x, hx, hx'⟩ := he
      exact ⟨hp.symm, Or.inr ⟨x, hx', hx⟩⟩
  constructor
  · intro e he
    change e ∈ setItem s.receipts _ _ at he
    rw [setItem_new hnew, List.mem_append, List.mem_singleton] at he
    rcases he with he | rfl
    · exact h.readable e he
    · exact ⟨r, rfl, hshort⟩
  · intro r' hr'
    rcases (hstored r').mp hr' with hr' | rfl
    · exact h.kept r' hr'
    · exact hobject
  · intro f
    show f ∈ s.index ++ [⟨r.line, false⟩] ↔ _
    rw [List.mem_append, List.mem_singleton, h.indexed f]
    constructor
    · intro hf
      rcases hf with ⟨r', hr', rfl⟩ | rfl
      · exact ⟨r', (hstored r').mpr (Or.inl hr'), rfl⟩
      · exact ⟨r, (hstored r).mpr (Or.inr rfl), rfl⟩
    · intro hf
      obtain ⟨r', hr', rfl⟩ := hf
      rcases (hstored r').mp hr' with hr' | rfl
      · exact Or.inl ⟨r', hr', rfl⟩
      · exact Or.inr rfl
  · exact h.addressed
  · intro r₁ r₂ h₁ h₂ hshare
    rcases (hstored r₁).mp h₁ with k₁ | rfl
    · rcases (hstored r₂).mp h₂ with k₂ | rfl
      · exact h.bound r₁ r₂ k₁ k₂ hshare
      · exact hbound r₁ k₁ hshare
    · rcases (hstored r₂).mp h₂ with k₂ | rfl
      · exact (hbound r₂ k₂ (hsymm hshare)).symm
      · rfl

end Invariant

end Centinal26.Export
