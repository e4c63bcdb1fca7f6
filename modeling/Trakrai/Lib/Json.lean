import Mathlib.Algebra.Group.Nat.Defs
import Mathlib.Data.List.Sort
import Mathlib.Data.Rat.Defs
import Trakrai.Lib.Table

namespace Trakrai.Lib
open List

/-- JSON values. The first entry of an object under a key is the one that counts. -/
inductive Json where
  | null
  | bool (value : Bool)
  | num (value : Rat)
  | str (value : String)
  | arr (items : List Json)
  | obj (fields : List (String × Json))

/-- Own property of an object; anything else has none. -/
def Json.field (name : String) : Json → Option Json
  | .obj fields => fields.lookup name
  | _ => none

def Json.string? : Json → Option String
  | .str value => some value
  | _ => none

/-- `typeof` of a JSON value. -/
inductive JsType where
  | object
  | boolean
  | number
  | string
deriving DecidableEq

def Json.typeOf : Json → JsType
  | .null | .arr _ | .obj _ => .object
  | .bool _ => .boolean
  | .num _ => .number
  | .str _ => .string

/-- `===`. Two objects or arrays from different places are different. -/
def Json.identical : Json → Json → Bool
  | .null, .null => true
  | .bool a, .bool b => a == b
  | .num a, .num b => a == b
  | .str a, .str b => a == b
  | _, _ => false

def objectPrototypeNames : List String :=
  ["constructor", "__defineGetter__", "__defineSetter__", "hasOwnProperty", "__lookupGetter__",
    "__lookupSetter__", "isPrototypeOf", "propertyIsEnumerable", "toString", "valueOf", "__proto__",
    "toLocaleString"]

/-- `key in object`. -/
def hasKey (fields : List (String × α)) (key : String) : Bool :=
  fields.any (·.1 == key) || objectPrototypeNames.contains key

/-- `object[key] = value`. -/
def setKey (fields : List (String × α)) (key : String) (value : α) : List (String × α) :=
  if fields.any (·.1 == key) then fields.map (setWhere Prod.fst key fun entry => (entry.1, value))
  else fields ++ [(key, value)]

/-- `Array.from(new Map(rows by key).values())`: of the rows with one key the last, at the place of the first. -/
def valuesByKey (key : α → String) (rows : List α) : List α :=
  (rows.foldl (fun map row => setKey map (key row) row) []).map Prod.snd

section
variable {α β : Type} {fields : List (String × α)} {key : String} {a : α}

theorem lookup_setKey (fields : List (String × α)) (key k : String) (value : α) :
    (setKey fields key value).lookup k = if k = key then some value else fields.lookup k := by
  have hset (entry : String × α) : ((entry.1, value) : String × α).1 = entry.1 := rfl
  rw [setKey]
  split
  · rename_i hany
    rw [lookup_eq_find?]
    split
    · rename_i hk
      subst hk
      cases hf : fields.find? (·.1 == k) with
      | none => exact absurd hany (find?_key_eq_none_iff.1 hf)
      | some field => rw [find?_setWhere hset hf, Option.map_some]
    · rename_i hk
      rw [find?_setWhere_of_ne hset hk, lookup_eq_find?]
  · rename_i hany
    rw [lookup_eq_find?, List.find?_append, Option.map_or, ← lookup_eq_find?]
    by_cases hk : k = key
    · subst hk
      have hnone : fields.lookup k = none := by
        rw [lookup_eq_find?, find?_key_eq_none_iff.2 hany, Option.map_none]
      simp [hnone]
    · simp [hk, Ne.symm hk]

theorem mem_setKey (h : entry ∈ setKey fields key a) :
    entry = (key, a) ∨ entry ∈ fields ∧ entry.1 ≠ key := by
  rw [setKey] at h
  split at h
  · obtain ⟨old, hold, rfl⟩ := mem_map.1 h
    rw [setWhere]
    split
    · rename_i hkey
      exact .inl (Prod.ext hkey rfl)
    · rename_i hkey
      exact .inr ⟨hold, hkey⟩
  · rename_i hnone
    rcases mem_append.1 h with h | h
    · exact .inr ⟨h, fun hkey => hnone (any_key_iff.2 ⟨entry, h, hkey⟩)⟩
    · exact .inl (mem_singleton.1 h)

theorem mem_setKey_iff {k : String} {value : α} :
    (k, value) ∈ setKey fields key a ↔ if k = key then value = a else (k, value) ∈ fields := by
  split
  · rename_i hkey
    subst hkey
    constructor
    · intro h
      rcases mem_setKey h with h | ⟨-, hne⟩
      · exact (Prod.mk.inj h).2
      · exact absurd rfl hne
    · rintro rfl
      have hlookup : (setKey fields k value).lookup k = some value := by rw [lookup_setKey, if_pos rfl]
      exact mem_of_lookup hlookup
  · rename_i hkey
    constructor
    · intro h
      rcases mem_setKey h with h | ⟨h, -⟩
      · exact absurd (Prod.mk.inj h).1 hkey
      · exact h
    · intro h
      rw [setKey]
      split
      · exact mem_map.2 ⟨(k, value), h, if_neg hkey⟩
      · exact mem_append_left _ h

theorem lookup_foldl_setKey (f : β → String) (g : β → α) (values : List β)
    (init : List (String × α)) (key : String) :
    (values.foldl (fun fields b => setKey fields (f b) (g b)) init).lookup key =
      ((values.reverse.find? (f · == key)).map g).or (init.lookup key) := by
  induction values generalizing init with
  | nil => simp
  | cons b values ih =>
    rw [foldl_cons, ih, lookup_setKey, reverse_cons, List.find?_append, Option.map_or,
      Option.or_assoc]
    congr 1
    by_cases hb : key = f b
    · simp [hb]
    · simp [hb, Ne.symm hb]

theorem nodup_setKey (h : (fields.map Prod.fst).Nodup) (key : String) (value : α) :
    ((setKey fields key value).map Prod.fst).Nodup := by
  rw [setKey]
  split
  · have hset (entry : String × α) : ((entry.1, value) : String × α).1 = entry.1 := rfl
    rw [map_key_setWhere hset]
    exact h
  · rename_i hany
    exact nodup_append_row h hany

theorem nodup_foldl_setKey (f : β → String) (g : β → α) (values : List β)
    (h : (fields.map Prod.fst).Nodup) :
    ((values.foldl (fun fields b => setKey fields (f b) (g b)) fields).map Prod.fst).Nodup := by
  induction values generalizing fields with
  | nil => exact h
  | cons b values ih => exact ih (nodup_setKey h _ _)

theorem foldl_setKey_of_nodup (h : ((fields ++ entries).map Prod.fst).Nodup):
    entries.foldl (fun cleaned entry => setKey cleaned entry.1 entry.2) fields = fields ++ entries := by
  induction entries generalizing fields with
  | nil => simp
  | cons entry entries ih =>
    have hnew : ¬ fields.any (·.1 == entry.1) := by
      rw [any_key_iff]
      rintro ⟨field, hf, he⟩
      rw [map_append, nodup_append] at h
      refine h.2.2 field.1 (mem_map_of_mem hf) entry.1 ?_ he
      exact mem_map_of_mem (mem_cons_self ..)
    have hstep : setKey fields entry.1 entry.2 = fields ++ [entry] := by rw [setKey, if_neg hnew]
    rw [foldl_cons, hstep, ih (by simpa using h), append_assoc, singleton_append]

theorem forall_foldl_setKey {entries : List (String × α)} {P : String × α → Prop}
    (hfields : ∀ entry ∈ fields, P entry)
    (hentries : ∀ entry ∈ entries, P entry) :
    ∀ entry ∈ entries.foldl (fun cleaned entry => setKey cleaned entry.1 entry.2) fields, P entry := by
  induction entries generalizing fields with
  | nil => exact hfields
  | cons new entries ih =>
    obtain ⟨hnew, hrest⟩ := forall_mem_cons.1 hentries
    apply ih _ hrest
    intro entry (he : entry ∈ setKey fields new.1 new.2)
    rcases mem_setKey he with rfl | ⟨he, -⟩
    · exact hnew
    · exact hfields entry he

end

section
variable {key : α → String} {rows : List α} {row : α}

theorem key_of_mem_values {entry : String × α}
    (h : entry ∈ rows.foldl (fun map row => setKey map (key row) row) []) : key entry.2 = entry.1 := by
  have hentries : ∀ entry ∈ (rows.map fun row => (key row, row)).foldl
      (fun map entry => setKey map entry.1 entry.2) [], key entry.2 = entry.1 := by
    refine forall_foldl_setKey (forall_mem_nil _) ?_
    intro entry hentry
    obtain ⟨row, -, rfl⟩ := mem_map.1 hentry
    rfl
  rw [foldl_map] at hentries
  exact hentries entry h

theorem nodup_valuesByKey (key : α → String) (rows : List α) : ((valuesByKey key rows).map key).Nodup := by
  have hnil : (([] : List (String × α)).map Prod.fst).Nodup := nodup_nil
  have hnodup := nodup_foldl_setKey key id rows hnil
  have hkeys : (valuesByKey key rows).map key =
      (rows.foldl (fun map row => setKey map (key row) row) []).map Prod.fst := by
    rw [valuesByKey, map_map]
    exact map_congr_left fun _ => key_of_mem_values
  rw [hkeys]
  exact hnodup

theorem mem_valuesByKey :
    row ∈ valuesByKey key rows ↔ rows.reverse.find? (key · == key row) = some row := by
  have hlookup := lookup_foldl_setKey key id rows [] (key row)
  have hnil : (([] : List (String × α)).map Prod.fst).Nodup := nodup_nil
  have hnodup := nodup_foldl_setKey key id rows hnil
  simp only [id_eq, Option.map_id_fun, lookup_nil, Option.or_none] at hlookup hnodup
  rw [← hlookup, valuesByKey]
  constructor
  · intro hrow
    obtain ⟨entry, hentry, rfl⟩ := mem_map.1 hrow
    apply lookup_of_mem hnodup
    rw [key_of_mem_values hentry]
    exact hentry
  · intro h
    exact mem_map_of_mem (mem_of_lookup h)

theorem mem_of_mem_valuesByKey (h : row ∈ valuesByKey key rows) : row ∈ rows :=
  List.mem_reverse.1 (List.mem_of_find?_eq_some (mem_valuesByKey.1 h))

theorem mem_valuesByKey_of_unique (h : row ∈ rows) (hkey : ∀ row' ∈ rows, key row' = key row → row' = row) :
    row ∈ valuesByKey key rows := by
  rw [mem_valuesByKey]
  cases hfind : rows.reverse.find? (key · == key row) with
  | none =>
    rw [List.find?_eq_none] at hfind
    exact absurd (beq_self_eq_true (key row)) (hfind row (List.mem_reverse.2 h))
  | some row' =>
    obtain ⟨hmem, hsame⟩ := mem_of_find?_key hfind
    rw [hkey row' (List.mem_reverse.1 hmem) hsame]

end

/-- The number of a key that is an array index: decimal, without leading zeros. -/
def arrayIndex (key : String) : Option Nat :=
  let n := key.toList.foldl (fun n c => 10 * n + (c.toNat - '0'.toNat)) 0
  if key ≠ "" ∧ key.toList.all Char.isDigit ∧ (key.toList.head? = some '0' → key = "0") ∧
      n + 1 < 2 ^ 32 then some n
  else none

/-- Array indices come first, in ascending order; the other keys tie. -/
def keyRank (key : String) : Nat := (arrayIndex key).getD (2 ^ 32)

/-- `Object.entries`, of properties in the order in which they were made. -/
def objectEntries (fields : List (String × α)) : List (String × α) :=
  fields.insertionSort fun field field' => keyRank field.1 ≤ keyRank field'.1

def KeysOrdered (keys : List String) : Prop := keys.Pairwise fun key key' => keyRank key ≤ keyRank key'

section
variable {α : Type} {fields : List (String × α)}

theorem perm_objectEntries (fields : List (String × α)) : (objectEntries fields).Perm fields :=
  perm_insertionSort _ fields

@[simp] theorem mem_objectEntries : field ∈ objectEntries fields ↔ field ∈ fields :=
  (perm_objectEntries fields).mem_iff

theorem keysOrdered_objectEntries (fields : List (String × α)) :
    KeysOrdered ((objectEntries fields).map Prod.fst) := by
  have : Std.Total fun field field' : String × α => keyRank field.1 ≤ keyRank field'.1 :=
    ⟨fun field field' => Nat.le_total _ _⟩
  have : IsTrans (String × α) fun field field' => keyRank field.1 ≤ keyRank field'.1 :=
    ⟨fun _ _ _ => Nat.le_trans⟩
  rw [KeysOrdered, pairwise_map]
  exact pairwise_insertionSort _ fields

theorem objectEntries_of_keysOrdered (h : KeysOrdered (fields.map Prod.fst)) : objectEntries fields = fields := by
  rw [KeysOrdered, pairwise_map] at h
  exact h.insertionSort_eq

theorem nodup_objectEntries (h : (fields.map Prod.fst).Nodup) :
    ((objectEntries fields).map Prod.fst).Nodup :=
  ((perm_objectEntries fields).map Prod.fst).nodup_iff.2 h

end

example : (objectEntries [("b", 0), ("10", 1), ("a", 2), ("9", 3), ("01", 4)]).map Prod.fst =
    ["9", "10", "b", "a", "01"] := by
  decide +kernel

mutual
/-- `fast-deep-equal`. As keys are distinct, two objects have as many keys as each other if each
has the other's. -/
def Json.deepEqual : Json → Json → Bool
  | .null, .null => true
  | .bool a, .bool b => a == b
  | .num a, .num b => a == b
  | .str a, .str b => a == b
  | .arr items, .arr items' => deepEqualItems items items'
  | .obj fields, .obj fields' =>
    fields'.all (fun field => fields.any (·.1 == field.1)) && deepEqualFields fields' fields
  | _, _ => false
termination_by structural value => value

def Json.deepEqualItems : List Json → List Json → Bool
  | [], [] => true
  | item :: items, item' :: items' => item.deepEqual item' && deepEqualItems items items'
  | _, _ => false
termination_by structural items => items

def Json.deepEqualFields (fields' : List (String × Json)) : List (String × Json) → Bool
  | [] => true
  | field :: fields => deepEqualField fields' field && deepEqualFields fields' fields
termination_by structural fields => fields

def Json.deepEqualField (fields' : List (String × Json)) : String × Json → Bool
  | (key, value) => (fields'.lookup key).any fun value' => value.deepEqual value'
termination_by structural field => field
end

example : Json.deepEqual (.obj [("a", .str "x"), ("b", .arr [])]) (.obj [("b", .arr []), ("a", .str "x")]) := by
  decide

theorem Json.deepEqualFields_iff : Json.deepEqualFields fields' fields ↔
      ∀ field ∈ fields, ∃ value', fields'.lookup field.1 = some value' ∧ field.2.deepEqual value' := by
  induction fields with
  | nil => exact ⟨fun _ _ h => (nomatch h), fun _ => rfl⟩
  | cons field fields ih =>
    obtain ⟨key, value⟩ := field
    rw [Json.deepEqualFields, Bool.and_eq_true, ih, forall_mem_cons, Json.deepEqualField, Option.any_eq_true]

theorem Json.deepEqual_field {a b : Json} (h : a.deepEqual b) (name : String) :
    (a.field name = none ∧ b.field name = none) ∨
      ∃ x y, a.field name = some x ∧ b.field name = some y ∧ x.deepEqual y := by
  cases a with
  | obj fields =>
    cases b with
    | obj fields' =>
      rw [Json.deepEqual, Bool.and_eq_true, Json.deepEqualFields_iff, all_eq_true] at h
      obtain ⟨hback, hforth⟩ := h
      cases hx : fields.lookup name with
      | some x =>
        obtain ⟨y, hy, he⟩ := hforth (name, x) (mem_of_lookup hx)
        exact .inr ⟨x, y, hx, hy, he⟩
      | none =>
        cases hy : fields'.lookup name with
        | none => exact .inl ⟨hx, hy⟩
        | some y =>
          obtain ⟨field, hmem, he⟩ := any_eq_true.1 (hback (name, y) (mem_of_lookup hy))
          have hne := lookup_eq_none_iff.1 hx field hmem
          rw [beq_iff_eq.1 he, bne_self_eq_false] at hne
          cases hne
    | _ => cases h
  | _ =>
    cases b with
    | obj fields' => cases h
    | _ => exact .inl ⟨rfl, rfl⟩

end Trakrai.Lib
