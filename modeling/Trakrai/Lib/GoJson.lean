import Mathlib.Data.List.Find
import Trakrai.Lib.Json

namespace Trakrai.Lib
open List

/-- The field of a struct that a key of an object is for, in `encoding/json`: the one of its name, or one
whose name differs in case only. -/
def tagOf (equalFold : String → String → Bool) (tags : List String) (key : String) : Option String :=
  if key ∈ tags then some key else tags.find? (equalFold key)

def structField (equalFold : String → String → Bool) (tags : List String) (fields : List (String × Json))
    (tag : String) : Option Json :=
  (fields.reverse.find? fun field => tagOf equalFold tags field.1 == some tag).map Prod.snd

def readText : Option Json → Option String
  | none | some .null => some ""
  | some (.str text) => some text
  | some _ => none

def readFlag : Option Json → Option Bool
  | none | some .null => some false
  | some (.bool value) => some value
  | some _ => none

def readInt : Option Json → Option Int
  | none | some .null => some 0
  | some (.num value) => if value.den = 1 then some value.num else none
  | some _ => none

def readTexts : Option Json → Option (List String)
  | none | some .null => some []
  | some (.arr items) => items.mapM fun item => readText (some item)
  | some _ => none

def readEntries : Option Json → Option (List (String × String))
  | none | some .null => some []
  | some (.obj fields) =>
    (fields.mapM fun field => (readText (some field.2)).map (field.1, ·)).map fun entries =>
      entries.foldl (fun cleaned entry => setKey cleaned entry.1 entry.2) []
  | some _ => none

def readNumber : Option Json → Option Rat
  | none | some .null => some 0
  | some (.num value) => some value
  | some _ => none

def readItems (read : Option Json → Option α) : Option Json → Option (List α)
  | none | some .null => some []
  | some (.arr items) => items.mapM fun item => read (some item)
  | some _ => none

def readStruct (equalFold : String → String → Bool) (tags : List String)
    (read : (String → Option Json) → Option α) : Option Json → Option α
  | none | some .null => read fun _ => none
  | some (.obj fields) => read (structField equalFold tags fields)
  | some _ => none

def textsValue (absent : Bool) (texts : List String) : Json :=
  if texts = [] ∧ absent then .null else .arr (texts.map .str)

def entriesValue (absent : Bool) (entries : List (String × String)) : Json :=
  if entries = [] ∧ absent then .null else .obj (entries.map fun entry => (entry.1, .str entry.2))

theorem mapM_map_some {f : α → β} {g : β → Option α} {items : List α} (h : ∀ item ∈ items, g (f item) = some item) :
    (items.map f).mapM g = some items := by
  induction items with
  | nil => rfl
  | cons item items ih =>
    obtain ⟨hitem, hitems⟩ := forall_mem_cons.1 h
    rw [map_cons, mapM_cons, hitem, ih hitems]
    rfl

@[simp] theorem readText_str (text : String) : readText (some (.str text)) = some text := rfl

@[simp] theorem readFlag_bool (value : Bool) : readFlag (some (.bool value)) = some value := rfl

@[simp] theorem readInt_num (value : Int) : readInt (some (.num value)) = some value := by
  simp [readInt]

@[simp] theorem readTexts_textsValue (absent : Bool) (texts : List String) :
    readTexts (some (textsValue absent texts)) = some texts := by
  rw [textsValue]
  split
  · rename_i h
    rw [h.1]
    rfl
  · exact mapM_map_some fun text _ => rfl

theorem readEntries_entriesValue {entries : List (String × String)} (absent : Bool)
    (h : (entries.map Prod.fst).Nodup) : readEntries (some (entriesValue absent entries)) = some entries := by
  rw [entriesValue]
  split
  · rename_i hempty
    rw [hempty.1]
    rfl
  · have hmap : (entries.map fun entry => (entry.1, Json.str entry.2)).mapM
        (fun field => (readText (some field.2)).map (field.1, ·)) = some entries :=
      mapM_map_some fun entry _ => rfl
    rw [readEntries, hmap, Option.map_some, foldl_setKey_of_nodup (by simpa using h), nil_append]

theorem structField_eq_lookup
    (hsub : ∀ field ∈ fields, field.1 ∈ tags) (hnodup : (fields.map Prod.fst).Nodup) :
    structField equalFold tags fields = fun tag => fields.lookup tag := by
  funext tag
  have hreverse : (fields.reverse.map Prod.fst).Nodup := by
    rw [map_reverse]
    exact List.nodup_reverse.2 hnodup
  have hexact : fields.reverse.find? (fun field => tagOf equalFold tags field.1 == some tag) =
      fields.reverse.find? (·.1 == tag) := by
    apply List.find?_congr
    intro field hfield
    rw [tagOf, if_pos (hsub field (List.mem_reverse.1 hfield))]
    rfl
  rw [structField, hexact, ← lookup_eq_find?]
  cases hfind : fields.lookup tag with
  | none =>
    rw [lookup_eq_find?, Option.map_eq_none_iff, find?_key_eq_none_iff] at hfind ⊢
    rwa [any_reverse]
  | some value => exact lookup_of_mem hreverse (List.mem_reverse.2 (mem_of_lookup hfind))

theorem structField_of_mem (htags : fields.map Prod.fst = tags) (hnodup : tags.Nodup)
    (h : (tag, value) ∈ fields) : structField equalFold tags fields tag = some value := by
  subst htags
  rw [structField_eq_lookup (fun field hfield => mem_map_of_mem hfield) hnodup]
  exact lookup_of_mem hnodup h

theorem readItems_map {read : Option Json → Option α} {write : α → Json} (items : List α)
    (h : ∀ item ∈ items, read (some (write item)) = some item) :
    readItems read (some (.arr (items.map write))) = some items := mapM_map_some h

@[simp] theorem readNumber_num (value : Rat) : readNumber (some (.num value)) = some value := rfl

end Trakrai.Lib
