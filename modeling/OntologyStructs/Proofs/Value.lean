import Mathlib.Data.List.Forall2
import OntologyStructs.Value.LangText
import OntologyStructs.Value.Reference
import OntologyStructs.Value.TypeSet

namespace OntologyStructs

theorem isSome_mapM {α β : Type} (f : α → Option β) (l : List α) :
    (l.mapM f).isSome = l.all fun a ↦ (f a).isSome := by
  induction l with
  | nil => rfl
  | cons a l ih =>
    rw [List.mapM_cons, List.all_cons, ← ih]
    cases f a <;> cases l.mapM f <;> rfl

theorem mapM_eq_some {α β : Type} {f : α → Option β} {l : List α} {bs : List β} :
    l.mapM f = some bs ↔ List.Forall₂ (fun a b ↦ f a = some b) l bs := by
  induction l generalizing bs with
  | nil =>
    rw [List.forall₂_nil_left_iff, List.mapM_nil]
    exact Option.some_inj.trans eq_comm
  | cons a l ih =>
    simp only [List.mapM_cons, List.forall₂_cons_left_iff, ← ih]
    cases f a <;> cases l.mapM f <;> simp [eq_comm]

namespace Json

theorem text?_eq_some {v : Json} {t : Text} : v.text? = some t ↔ v = .text t := by
  cases v <;> simp [text?]

theorem texts?_eq_some {v : Json} {ts : List Text} : v.texts? = some ts ↔ v = .list (ts.map .text) := by
  cases v with
  | list items =>
    simp only [texts?, mapM_eq_some, text?_eq_some, list.injEq]
    rw [← List.forall₂_map_right_iff, List.forall₂_eq_eq_eq]
  | _ => simp [texts?]

def isText (v : Json) : Bool := v.text?.isSome

def isTextOrNull (v : Json) : Bool := v.isText || v.isNull

def hasId : Json → Bool
  | object members => ((object members).get? "@id").any isText
  | _ => false

theorem isSome_texts?_list (items : List Json) : (list items).texts?.isSome = items.all isText :=
  isSome_mapM text? items

end Json

namespace ValueKind

open Json

def fits : ValueKind → Json → Bool
  | reference, object members => hasId (object members)
  | reference, list items => items.all hasId || items.all isText
  | typeSet, text _ => true
  | typeSet, list items => !items.isEmpty && items.all isText
  | langText, text _ => true
  | langText, null => true
  | langText, object members =>
    ((object members).get? "@value").any isTextOrNull &&
      ((object members).get? "@language").all isTextOrNull
  | _, _ => false

def ReadBy {α : Type} (kind : ValueKind) (read : Json → Except Misshapen α) : Prop :=
  ∀ v, (kind.fits v = true ∧ ∃ a, read v = .ok a) ∨ (kind.fits v = false ∧ read v = .error ⟨kind, v⟩)

end ValueKind

namespace Reference

theorem isSome_objectId? (v : Json) : (objectId? v).isSome = v.hasId := by
  cases v with
  | object members =>
    rw [objectId?, Json.hasId]
    cases (Json.object members).get? "@id" <;> rfl
  | _ => rfl

theorem readBy : ValueKind.reference.ReadBy read := by
  intro v
  have hid := isSome_objectId? v
  cases v with
  | object members =>
    have hfits : ValueKind.reference.fits (.object members) = (Json.object members).hasId := rfl
    rw [hfits, ← hid, read]
    cases objectId? (.object members) with
    | some id => exact .inl ⟨rfl, _, rfl⟩
    | none => exact .inr ⟨rfl, rfl⟩
  | list items =>
    have hobjects : (objectIds? (.list items)).isSome = items.all Json.hasId := by
      rw [objectIds?, isSome_mapM]
      exact congrArg items.all (funext isSome_objectId?)
    have hfits : ValueKind.reference.fits (.list items) =
        (items.all Json.hasId || items.all Json.isText) := rfl
    have hnone : objectId? (.list items) = none := rfl
    rw [hfits, ← hobjects, ← Json.isSome_texts?_list, read, hnone]
    cases objectIds? (.list items) with
    | some ids => exact .inl ⟨rfl, _, rfl⟩
    | none =>
      cases (Json.list items).texts? with
      | some ids => exact .inl ⟨rfl, _, rfl⟩
      | none => exact .inr ⟨rfl, rfl⟩
  | _ => exact .inr ⟨rfl, rfl⟩

end Reference

namespace TypeSet

theorem readBy : ValueKind.typeSet.ReadBy read := by
  intro v
  cases v with
  | text t => exact .inl ⟨rfl, _, rfl⟩
  | list items =>
    have hfits : ValueKind.typeSet.fits (.list items) =
        (!items.isEmpty && items.all Json.isText) := rfl
    have hnone : (Json.list items).text? = none := rfl
    cases items with
    | nil => exact .inr ⟨rfl, rfl⟩
    | cons item items =>
      rw [hfits, ← Json.isSome_texts?_list, read, hnone]
      cases hts : (Json.list (item :: items)).texts? with
      | none => exact .inr ⟨rfl, rfl⟩
      | some ts =>
        cases ts with
        | cons t ts => exact .inl ⟨rfl, ⟨t, ts⟩, rfl⟩
        | nil =>
          -- something was read for each item
          cases Json.texts?_eq_some.mp hts
  | _ => exact .inr ⟨rfl, rfl⟩

end TypeSet

namespace LangText

theorem isSome_textOrNull? (v : Json) : (textOrNull? v).isSome = v.isTextOrNull := by
  cases v <;> rfl

theorem isSome_ofObject? (members : List (Text × Json)) :
    (ofObject? (.object members)).isSome = ValueKind.langText.fits (.object members) := by
  have hlanguage : ((Json.object members).get? "@language").all Json.isTextOrNull =
      (textOrNull? (((Json.object members).get? "@language").getD .null)).isSome := by
    rw [isSome_textOrNull?]
    cases (Json.object members).get? "@language" <;> rfl
  rw [ValueKind.fits, hlanguage, ofObject?]
  cases (Json.object members).get? "@value" with
  | none => rfl
  | some value =>
    rw [Option.any_some, ← isSome_textOrNull?, Option.bind_eq_bind, Option.bind_some]
    cases textOrNull? value with
    | none => rfl
    | some t => cases textOrNull? (((Json.object members).get? "@language").getD .null) <;> rfl

theorem readBy : ValueKind.langText.ReadBy read := by
  intro v
  cases v with
  | text t => exact .inl ⟨rfl, _, rfl⟩
  | null => exact .inl ⟨rfl, _, rfl⟩
  | object members =>
    have hnone : textOrNull? (.object members) = none := rfl
    rw [← isSome_ofObject? members, read, hnone]
    cases ofObject? (.object members) with
    | some t => exact .inl ⟨rfl, _, rfl⟩
    | none => exact .inr ⟨rfl, rfl⟩
  | _ => exact .inr ⟨rfl, rfl⟩

end LangText

end OntologyStructs
