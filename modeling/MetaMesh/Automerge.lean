import Mathlib.Data.List.Nodup
import Mathlib.Data.List.FinRange

/-!
# Automerge

What the crate takes from Automerge.  A change has a hash, the hashes of the
changes it depends on, a message and an effect on the document.  A document
holds changes; `Automerge.Lawful` states what the library promises about them.
-/

namespace MetaMesh

/-- A change of an Automerge document. -/
structure Change (Effect : Type) where
  hash : String
  deps : List String
  message : Option String
  effect : Effect
deriving DecidableEq, Repr

/-- Every dependency of a change is there. -/
def DependencyClosed {Effect : Type} (changes : List (Change Effect)) : Prop :=
  ∀ change ∈ changes, ∀ dep ∈ change.deps, ∃ other ∈ changes, other.hash = dep

/-- The part of Automerge that the crate calls. -/
structure Automerge (Effect : Type) where
  Document : Type
  /-- `AutoCommit::load`. -/
  load : List UInt8 → Option Document
  /-- `get_changes(&[])`. -/
  changes : Document → List (Change Effect)
  /-- `Change::from_bytes`. -/
  changeFromBytes : List UInt8 → Option (Change Effect)
  /-- `AutoCommit::new`, then `apply_changes`. -/
  build : List (Change Effect) → Option Document
  save : Document → List UInt8

/-- A document holds each change once, with its dependencies, and these form no
cycle; a document that is built from a closed set of changes, or saved and
loaded, holds exactly those changes. -/
structure Automerge.Lawful {Effect : Type} (A : Automerge Effect) : Prop where
  distinct : ∀ document, ((A.changes document).map fun change => change.hash).Nodup
  closed : ∀ document, DependencyClosed (A.changes document)
  acyclic : ∀ document, ∃ rank : String → Nat, ∀ change ∈ A.changes document,
    ∀ dep ∈ change.deps, rank dep < rank change.hash
  built : ∀ changes document, (changes.map fun change => change.hash).Nodup →
    DependencyClosed changes → A.build changes = some document →
    ∀ change, change ∈ A.changes document ↔ change ∈ changes
  saved : ∀ document, ∃ copy, A.load (A.save document) = some copy ∧
    ∀ change, change ∈ A.changes copy ↔ change ∈ A.changes document

namespace Sample

/-- Every document holds one change. -/
def automerge : Automerge Unit where
  Document := Unit
  load _ := some ()
  changes _ := [⟨"head", [], none, ()⟩]
  changeFromBytes _ := none
  build _ := none
  save _ := []

theorem automerge_lawful : automerge.Lawful where
  distinct _ := by simp [automerge]
  closed _ := by simp [automerge, DependencyClosed]
  acyclic _ := ⟨fun _ => 0, by simp [automerge]⟩
  built _ _ _ _ built := by simp [automerge] at built
  saved _ := ⟨(), rfl, fun _ => Iff.rfl⟩

/-- An Automerge that knows a few documents, saved as their numbers, and builds
the one that holds the given changes. -/
def journal (documents : List (List (Change Unit))) : Automerge Unit where
  Document := Fin documents.length
  load bytes := match bytes with
    | [number] => if known : number.toNat < documents.length then some ⟨number.toNat, known⟩
      else none
    | _ => none
  changes document := documents.get document
  changeFromBytes _ := none
  build changes := (List.finRange documents.length).find? fun document =>
    changes.all (· ∈ documents.get document) && (documents.get document).all (· ∈ changes)
  save document := [UInt8.ofNat document]

theorem journal_lawful {documents : List (List (Change Unit))} (few : documents.length ≤ 256)
    (rank : String → Nat) (sound : ∀ changes ∈ documents,
      (changes.map Change.hash).Nodup ∧ (∀ change ∈ changes, ∀ dep ∈ change.deps,
        (∃ other ∈ changes, other.hash = dep) ∧ rank dep < rank change.hash)) :
    (journal documents).Lawful where
  distinct document := (sound _ (List.get_mem documents document)).1
  closed document change held dep needs :=
    ((sound _ (List.get_mem documents document)).2 change held dep needs).1
  acyclic document := ⟨rank, fun change held dep needs =>
    ((sound _ (List.get_mem documents document)).2 change held dep needs).2⟩
  built changes document _ _ built change := by
    have same := List.find?_some built
    rw [Bool.and_eq_true, List.all_eq_true, List.all_eq_true] at same
    simp only [decide_eq_true_eq] at same
    exact ⟨same.2 change, same.1 change⟩
  saved document := by
    have small : document.val < 256 := lt_of_lt_of_le document.isLt few
    have read : (UInt8.ofNat document.val).toNat = document.val := by
      rw [UInt8.toNat_ofNat']
      exact Nat.mod_eq_of_lt small
    refine ⟨document, ?_, fun _ => Iff.rfl⟩
    have known : document.val < documents.length := document.isLt
    simp only [journal, read, known, dif_pos]
    rfl

end Sample

end MetaMesh
