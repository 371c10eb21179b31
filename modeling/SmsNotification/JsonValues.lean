import Mathlib.Algebra.GroupWithZero.Nat
import Mathlib.Data.List.Flatten
import SmsNotification.UnicodeText

namespace SmsNotification.JsonValues

open SmsNotification.UnicodeText

/-- A JSON value. A number is given by the text that writes it. -/
inductive Value where
  | null
  | bool (b : Bool)
  | number (numeral : String)
  | string (text : List UInt16)
  | array (items : List Value)
  | object (entries : List (List UInt16 × Value))

/-- Induction with a hypothesis for every element and every entry. -/
@[elab_as_elim]
theorem Value.tree_induction {motive : Value → Prop} (null : motive .null)
    (bool : ∀ b, motive (.bool b)) (number : ∀ numeral, motive (.number numeral))
    (string : ∀ text, motive (.string text))
    (array : ∀ items, (∀ item ∈ items, motive item) → motive (.array items))
    (object : ∀ entries, (∀ entry ∈ entries, motive entry.2) → motive (.object entries))
    (value : Value) : motive value :=
  @Value.rec motive (fun items => ∀ item ∈ items, motive item)
    (fun entries => ∀ entry ∈ entries, motive entry.2) (fun entry => motive entry.2)
    null bool number string array object (by simp)
    (fun _ _ hitem hitems => List.forall_mem_cons.mpr ⟨hitem, hitems⟩) (by simp)
    (fun _ _ hentry hentries => List.forall_mem_cons.mpr ⟨hentry, hentries⟩)
    (fun _ _ hvalue => hvalue) value

mutual

/-- The nodes of a value at a level, with the levels at which they stand. -/
def nodes (level : Nat) : Value → List (Nat × Value)
  | .null => [(level, .null)]
  | .bool b => [(level, .bool b)]
  | .number numeral => [(level, .number numeral)]
  | .string text => [(level, .string text)]
  | .array items => (level, .array items) :: nodesOfItems (level + 1) items
  | .object entries => (level, .object entries) :: nodesOfEntries (level + 1) entries

def nodesOfItems (level : Nat) : List Value → List (Nat × Value)
  | [] => []
  | item :: items => nodes level item ++ nodesOfItems level items

def nodesOfEntries (level : Nat) : List (List UInt16 × Value) → List (Nat × Value)
  | [] => []
  | (_, entry) :: entries => nodes level entry ++ nodesOfEntries level entries

end

/-- The keys of a node that is an object. -/
def ownKeys : Value → List (List UInt16)
  | .object entries => entries.map Prod.fst
  | _ => []

theorem nodesOfItems_eq (level : Nat) (items : List Value) :
    nodesOfItems level items = items.flatMap (nodes level) := by
  induction items with
  | nil => rfl
  | cons item items ih => rw [nodesOfItems, ih, List.flatMap_cons]

theorem nodesOfEntries_eq (level : Nat) (entries : List (List UInt16 × Value)) :
    nodesOfEntries level entries = entries.flatMap fun entry => nodes level entry.2 := by
  induction entries with
  | nil => rfl
  | cons entry entries ih => rw [nodesOfEntries, ih, List.flatMap_cons]

def hexDigit (n : Nat) : Char :=
  if n < 10 then Char.ofNat (0x30 + n) else Char.ofNat (0x57 + n)

/-- The escape of a code unit by its number. -/
def unicodeEscape (u : UInt16) : List Char :=
  ['\\', 'u', hexDigit (u.toNat / 0x1000), hexDigit (u.toNat / 0x100 % 0x10),
    hexDigit (u.toNat / 0x10 % 0x10), hexDigit (u.toNat % 0x10)]

/-- A code unit that is not part of a pair, as it is written between quotes. -/
def quoteUnit (u : UInt16) : List Char :=
  if u = 0x08 then ['\\', 'b']
  else if u = 0x09 then ['\\', 't']
  else if u = 0x0a then ['\\', 'n']
  else if u = 0x0c then ['\\', 'f']
  else if u = 0x0d then ['\\', 'r']
  else if u = 0x22 then ['\\', '"']
  else if u = 0x5c then ['\\', '\\']
  else if u < 0x20 || isSurrogate u then unicodeEscape u
  else [single u]

def quoteUnits : List UInt16 → List Char
  | [] => []
  | [u] => quoteUnit u
  | u :: v :: rest =>
      if isHigh u && isLow v then pair u v :: quoteUnits rest
      else quoteUnit u ++ quoteUnits (v :: rest)

def quote (text : List UInt16) : List Char :=
  '"' :: quoteUnits text ++ ['"']

mutual

/-- `JSON.stringify`. -/
def stringify : Value → List Char
  | .null => "null".toList
  | .bool b => if b then "true".toList else "false".toList
  | .number numeral => numeral.toList
  | .string text => quote text
  | .array items => '[' :: [','].intercalate (stringifyItems items) ++ [']']
  | .object entries => '\x7b' :: [','].intercalate (stringifyEntries entries) ++ ['\x7d']

def stringifyItems : List Value → List (List Char)
  | [] => []
  | item :: items => stringify item :: stringifyItems items

def stringifyEntries : List (List UInt16 × Value) → List (List Char)
  | [] => []
  | (key, entry) :: entries =>
      (quote key ++ ':' :: stringify entry) :: stringifyEntries entries

end

/-- `Buffer.byteLength` of a text in UTF-8. -/
def byteLength (text : List Char) : Nat :=
  (text.flatMap String.utf8EncodeChar).length

@[simp] theorem byteLength_nil : byteLength [] = 0 :=
  rfl

@[simp] theorem byteLength_append (text text' : List Char) :
    byteLength (text ++ text') = byteLength text + byteLength text' := by
  rw [byteLength, List.flatMap_append, List.length_append, byteLength, byteLength]

@[simp] theorem byteLength_cons (ch : Char) (text : List Char) :
    byteLength (ch :: text) = (String.utf8EncodeChar ch).length + byteLength text := by
  rw [byteLength, List.flatMap_cons, List.length_append, byteLength]

theorem stringifyItems_eq (items : List Value) : stringifyItems items = items.map stringify := by
  induction items with
  | nil => rfl
  | cons item items ih => rw [stringifyItems, ih, List.map_cons]

theorem stringifyEntries_eq (entries : List (List UInt16 × Value)) :
    stringifyEntries entries =
      entries.map fun entry => quote entry.1 ++ ':' :: stringify entry.2 := by
  induction entries with
  | nil => rfl
  | cons entry entries ih => rw [stringifyEntries, ih, List.map_cons]

theorem byteLength_intercalate (sep : Char) (hsep : (String.utf8EncodeChar sep).length = 1)
    (pieces : List (List Char)) :
    byteLength ([sep].intercalate pieces) =
      (pieces.map byteLength).sum + (pieces.length - 1) := by
  induction pieces with
  | nil => rfl
  | cons piece pieces ih =>
      cases pieces with
      | nil => simp
      | cons piece' pieces =>
          rw [List.intercalate_cons_cons, byteLength_append, byteLength_append, ih]
          simp only [List.map_cons, List.sum_cons, List.length_cons, byteLength_cons, hsep,
            byteLength_nil]
          omega

theorem byteLength_array (items : List Value) :
    byteLength (stringify (.array items)) =
      (items.map fun item => byteLength (stringify item)).sum + (items.length - 1) + 2 := by
  have hsep : (String.utf8EncodeChar ',').length = 1 := rfl
  have hopen : (String.utf8EncodeChar '[').length = 1 := rfl
  have hclose : (String.utf8EncodeChar ']').length = 1 := rfl
  simp only [stringify, stringifyItems_eq, List.cons_append, byteLength_cons, byteLength_append,
    byteLength_nil, byteLength_intercalate ',' hsep, hopen, hclose, List.map_map,
    Function.comp_def, List.length_map]
  omega

theorem byteLength_object (entries : List (List UInt16 × Value)) :
    byteLength (stringify (.object entries)) =
      (entries.map fun entry =>
        byteLength (quote entry.1) + byteLength (stringify entry.2) + 1).sum +
          (entries.length - 1) + 2 := by
  have hsep : (String.utf8EncodeChar ',').length = 1 := rfl
  have hopen : (String.utf8EncodeChar '\x7b').length = 1 := rfl
  have hclose : (String.utf8EncodeChar '\x7d').length = 1 := rfl
  have hcolon : (String.utf8EncodeChar ':').length = 1 := rfl
  simp only [stringify, stringifyEntries_eq, List.cons_append, byteLength_cons, byteLength_append,
    byteLength_nil, byteLength_intercalate ',' hsep, hopen, hclose, hcolon, List.map_map,
    Function.comp_def, List.length_map]
  have hsum : (entries.map fun entry =>
      byteLength (quote entry.1) + (1 + byteLength (stringify entry.2))).sum =
      (entries.map fun entry =>
        byteLength (quote entry.1) + byteLength (stringify entry.2) + 1).sum := by
    congr 2
    funext entry
    omega
  omega

/-- One value is the other with entries and elements, at any levels, in another order. -/
inductive Reordered : Value → Value → Prop where
  | refl (value : Value) : Reordered value value
  | trans {value value' value'' : Value} : Reordered value value' → Reordered value' value'' →
      Reordered value value''
  | items {items items' : List Value} : items.Perm items' →
      Reordered (.array items) (.array items')
  | entries {entries entries' : List (List UInt16 × Value)} : entries.Perm entries' →
      Reordered (.object entries) (.object entries')
  | item (before after : List Value) {value value' : Value} : Reordered value value' →
      Reordered (.array (before ++ value :: after)) (.array (before ++ value' :: after))
  | entry (before after : List (List UInt16 × Value)) (key : List UInt16) {value value' : Value} :
      Reordered value value' →
        Reordered (.object (before ++ (key, value) :: after))
          (.object (before ++ (key, value') :: after))

theorem Reordered.symm {value value' : Value} (h : Reordered value value') :
    Reordered value' value := by
  induction h with
  | refl value => exact Reordered.refl value
  | trans _ _ ih ih' => exact ih'.trans ih
  | items hperm => exact Reordered.items hperm.symm
  | entries hperm => exact Reordered.entries hperm.symm
  | item before after _ ih => exact Reordered.item before after ih
  | entry before after key _ ih => exact Reordered.entry before after key ih

theorem byteLength_stringify_eq {value value' : Value} (h : Reordered value value') :
    byteLength (stringify value) = byteLength (stringify value') := by
  induction h with
  | refl => rfl
  | trans _ _ ih ih' => exact ih.trans ih'
  | items hperm => rw [byteLength_array, byteLength_array, (hperm.map _).sum_nat, hperm.length_eq]
  | entries hperm =>
      rw [byteLength_object, byteLength_object, (hperm.map _).sum_nat, hperm.length_eq]
  | item before after _ ih =>
      simp only [byteLength_array, List.map_append, List.map_cons, List.sum_append, List.sum_cons,
        List.length_append, List.length_cons, ih]
  | entry before after key _ ih =>
      simp only [byteLength_object, List.map_append, List.map_cons, List.sum_append,
        List.sum_cons, List.length_append, List.length_cons, ih]

theorem perm_collect {α : Type} (collect : Nat × Value → List α)
    (hcollect : ∀ level value value', Reordered value value' →
      (collect (level, value)).Perm (collect (level, value')))
    {value value' : Value} (h : Reordered value value') (level : Nat) :
    ((nodes level value).flatMap collect).Perm ((nodes level value').flatMap collect) := by
  induction h generalizing level with
  | refl => exact List.Perm.refl _
  | trans _ _ ih ih' => exact (ih level).trans (ih' level)
  | items hperm =>
      simp only [nodes, nodesOfItems_eq, List.flatMap_cons]
      exact (hcollect level _ _ (Reordered.items hperm)).append
        ((hperm.flatMap_right _).flatMap_right _)
  | entries hperm =>
      simp only [nodes, nodesOfEntries_eq, List.flatMap_cons]
      exact (hcollect level _ _ (Reordered.entries hperm)).append
        ((hperm.flatMap_right _).flatMap_right _)
  | item before after hvalue ih =>
      simp only [nodes, nodesOfItems_eq, List.flatMap_cons, List.flatMap_append]
      exact (hcollect level _ _ (Reordered.item before after hvalue)).append
        (((ih (level + 1)).append_right _).append_left _)
  | entry before after key hvalue ih =>
      simp only [nodes, nodesOfEntries_eq, List.flatMap_cons, List.flatMap_append]
      exact (hcollect level _ _ (Reordered.entry before after key hvalue)).append
        (((ih (level + 1)).append_right _).append_left _)

end SmsNotification.JsonValues
