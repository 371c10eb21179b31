import SmsNotification.JsonValues

namespace SmsNotification.BoundedMetadata

open SmsNotification.JsonValues
open SmsNotification.UnicodeText

/-- A check that takes a count and leaves a new one. -/
abbrev Check := Nat → Bool × Nat

def pass : Check := fun count => (true, count)

/-- The second check is made only if the first one succeeds. -/
def andThen (first second : Check) : Check := fun count =>
  match first count with
  | (true, count) => second count
  | (false, count) => (false, count)

/-- From a count within the limit the check succeeds just if the count that is raised by
its weight is within the limit and a condition holds; it then leaves the raised count. -/
def Meets (limit : Nat) (check : Check) (weight : Nat) (ok : Prop) : Prop :=
  ∀ count ≤ limit, ((check count).1 ↔ count + weight ≤ limit ∧ ok) ∧
    ((check count).1 → (check count).2 = count + weight)

section Checks

variable {limit weight weight' : Nat} {first second check : Check} {ok ok' : Prop}

theorem meets_pass : Meets limit pass 0 True :=
  fun _ hcount => ⟨⟨fun _ => ⟨hcount, trivial⟩, fun _ => rfl⟩, fun _ => rfl⟩

theorem meets_test {b : Bool} : Meets limit (fun count => (b, count)) 0 b :=
  fun _ hcount => ⟨⟨fun h => ⟨hcount, h⟩, fun h => h.2⟩, fun _ => rfl⟩

theorem Meets.congr (h : Meets limit check weight ok) (hweight : weight = weight')
    (hok : ok ↔ ok') : Meets limit check weight' ok' := by
  rw [← hweight, ← propext hok]
  exact h

theorem meets_fail (h : ¬ok) : Meets limit (fun count => (false, count)) weight ok :=
  fun _ _ => ⟨⟨fun hfalse => (by cases hfalse), fun hok => absurd hok.2 h⟩,
    fun hfalse => (by cases hfalse)⟩

theorem Meets.andThen (hfirst : Meets limit first weight ok)
    (hsecond : Meets limit second weight' ok') :
    Meets limit (andThen first second) (weight + weight') (ok ∧ ok') := by
  intro count hcount
  obtain ⟨hiff, hleft⟩ := hfirst count hcount
  rw [BoundedMetadata.andThen]
  cases hrun : first count with
  | mk b count' =>
      rw [hrun] at hiff hleft
      cases b with
      | false =>
          refine ⟨⟨fun h => (by cases h), fun h => ?_⟩, fun h => (by cases h)⟩
          exact absurd (hiff.mpr ⟨by omega, h.2.1⟩) (by simp)
      | true =>
          obtain ⟨hwithin, hok⟩ := hiff.mp rfl
          obtain rfl : count' = count + weight := hleft rfl
          obtain ⟨hiff', hleft'⟩ := hsecond _ hwithin
          refine ⟨hiff'.trans ⟨fun h => ⟨by omega, hok, h.2⟩, fun h => ⟨by omega, h.2.2⟩⟩,
            fun h => ?_⟩
          exact (hleft' h).trans (Nat.add_assoc _ _ _)

end Checks

def reservedKeys : List (List UInt16) :=
  ["__proto__", "prototype", "constructor"].map fun key => encode key.toList

/-- The check of a key, which counts it first. -/
def checkKey (key : List UInt16) : Check := fun keyCount =>
  (keyCount + 1 ≤ 20 && key.length ≤ 64 && !reservedKeys.contains key, keyCount + 1)

mutual

/-- `inspect`, with the count of the keys that the closure shares. -/
def inspect (depth : Nat) : Value → Check
  | .null => fun keyCount => (depth ≤ 4, keyCount)
  | .bool _ => fun keyCount => (depth ≤ 4, keyCount)
  | .number _ => fun keyCount => (depth ≤ 4, keyCount)
  | .string text => fun keyCount => (depth ≤ 4 && text.length ≤ 256, keyCount)
  | .array items =>
      if depth > 4 then fun keyCount => (false, keyCount) else everyItem (depth + 1) items
  | .object entries =>
      if depth > 4 then fun keyCount => (false, keyCount) else everyEntry (depth + 1) entries

def everyItem (depth : Nat) : List Value → Check
  | [] => pass
  | item :: items => andThen (inspect depth item) (everyItem depth items)

def everyEntry (depth : Nat) : List (List UInt16 × Value) → Check
  | [] => pass
  | (key, entry) :: entries =>
      andThen (andThen (checkKey key) (inspect depth entry)) (everyEntry depth entries)

end

/-- A value that is nested too deeply to be written is too long as well. -/
def isBoundedMetadata (value : Value) : Bool :=
  if byteLength (stringify value) > 4096 then false else (inspect 0 value 0).1

def maxMetadataBytes : Nat := 4096

/-- The decorator `IsBoundedMetadata` of the request body, which has been run before. -/
def validate (value : Value) : Bool :=
  byteLength (stringify value) ≤ maxMetadataBytes

def ownTexts : Value → List (List UInt16)
  | .string text => [text]
  | _ => []

/-- The keys of a value at all levels. -/
def keys (value : Value) : List (List UInt16) :=
  (nodes 0 value).flatMap fun node => ownKeys node.2

/-- The strings of a value at all levels. -/
def texts (value : Value) : List (List UInt16) :=
  (nodes 0 value).flatMap fun node => ownTexts node.2

/-- A value within the limits. -/
structure Bounded (value : Value) : Prop where
  size : byteLength (stringify value) ≤ 4096
  level : ∀ node ∈ nodes 0 value, node.1 ≤ 4
  count : (keys value).length ≤ 20
  key : ∀ key ∈ keys value, key.length ≤ 64 ∧ key ∉ reservedKeys
  text : ∀ text ∈ texts value, text.length ≤ 256

/-- What is said about one node. -/
structure NodeBounded (node : Nat × Value) : Prop where
  level : node.1 ≤ 4
  key : ∀ key ∈ ownKeys node.2, key.length ≤ 64 ∧ key ∉ reservedKeys
  text : ∀ text ∈ ownTexts node.2, text.length ≤ 256

/-- The number of the keys of some nodes. -/
def keyTotal (nodes : List (Nat × Value)) : Nat :=
  (nodes.flatMap fun node => ownKeys node.2).length

theorem keyTotal_append (nodes nodes' : List (Nat × Value)) :
    keyTotal (nodes ++ nodes') = keyTotal nodes + keyTotal nodes' := by
  rw [keyTotal, List.flatMap_append, List.length_append, keyTotal, keyTotal]

theorem keyTotal_cons (node : Nat × Value) (nodes : List (Nat × Value)) :
    keyTotal (node :: nodes) = (ownKeys node.2).length + keyTotal nodes := by
  rw [keyTotal, List.flatMap_cons, List.length_append, keyTotal]

theorem meets_checkKey (key : List UInt16) :
    Meets 20 (checkKey key) 1 (key.length ≤ 64 ∧ key ∉ reservedKeys) := by
  intro keyCount _
  refine ⟨?_, fun _ => rfl⟩
  simp [checkKey, and_assoc]

theorem meets_leaf {depth : Nat} {value : Value} {b : Bool} (hkeys : ownKeys value = [])
    (hb : b ↔ depth ≤ 4 ∧ ∀ text ∈ ownTexts value, text.length ≤ 256) :
    Meets 20 (fun keyCount => (b, keyCount)) (keyTotal [(depth, value)])
      (∀ node ∈ [(depth, value)], NodeBounded node) := by
  refine meets_test.congr ?_ (hb.trans ⟨fun h => ?_, fun h => ?_⟩)
  · rw [keyTotal_cons, hkeys]
    rfl
  · rw [List.forall_mem_singleton]
    exact ⟨h.1, by simp [hkeys], h.2⟩
  · rw [List.forall_mem_singleton] at h
    exact ⟨h.level, h.text⟩

theorem meets_everyItem {depth : Nat} {items : List Value}
    (ih : ∀ item ∈ items, ∀ depth, Meets 20 (inspect depth item) (keyTotal (nodes depth item))
      (∀ node ∈ nodes depth item, NodeBounded node)) :
    Meets 20 (everyItem depth items) (keyTotal (nodesOfItems depth items))
      (∀ node ∈ nodesOfItems depth items, NodeBounded node) := by
  induction items with
  | nil => exact meets_pass.congr rfl (by simp [nodesOfItems])
  | cons item items ihitems =>
      rw [List.forall_mem_cons] at ih
      rw [everyItem, nodesOfItems]
      exact ((ih.1 depth).andThen (ihitems ih.2)).congr (keyTotal_append _ _).symm
        List.forall_mem_append.symm

theorem meets_everyEntry {depth : Nat} {entries : List (List UInt16 × Value)}
    (ih : ∀ entry ∈ entries, ∀ depth, Meets 20 (inspect depth entry.2)
      (keyTotal (nodes depth entry.2)) (∀ node ∈ nodes depth entry.2, NodeBounded node)) :
    Meets 20 (everyEntry depth entries)
      (entries.length + keyTotal (nodesOfEntries depth entries))
      ((∀ key ∈ entries.map Prod.fst, key.length ≤ 64 ∧ key ∉ reservedKeys) ∧
        ∀ node ∈ nodesOfEntries depth entries, NodeBounded node) := by
  induction entries with
  | nil => exact meets_pass.congr rfl (by simp [nodesOfEntries])
  | cons entry entries ihentries =>
      rw [List.forall_mem_cons] at ih
      rw [everyEntry, nodesOfEntries]
      refine (((meets_checkKey entry.1).andThen (ih.1 depth)).andThen (ihentries ih.2)).congr ?_ ?_
      · rw [keyTotal_append, List.length_cons]
        omega
      · rw [List.map_cons, List.forall_mem_cons, List.forall_mem_append]
        tauto

theorem meets_inspect (value : Value) : ∀ depth, Meets 20 (inspect depth value)
    (keyTotal (nodes depth value)) (∀ node ∈ nodes depth value, NodeBounded node) := by
  induction value using Value.tree_induction with
  | null => exact fun depth => meets_leaf rfl (by simp [ownTexts])
  | bool b => exact fun depth => meets_leaf rfl (by simp [ownTexts])
  | number numeral => exact fun depth => meets_leaf rfl (by simp [ownTexts])
  | string text => exact fun depth => meets_leaf rfl (by simp [ownTexts])
  | array items ih =>
      intro depth
      rw [inspect, nodes]
      split_ifs with hdepth
      · exact meets_fail fun h => absurd (h _ List.mem_cons_self).level (by simpa using hdepth)
      · refine (meets_everyItem ih).congr ?_ ?_
        · rw [keyTotal_cons]
          exact (Nat.zero_add _).symm
        · rw [List.forall_mem_cons, iff_and_self]
          exact fun _ => ⟨by simpa using hdepth, by simp [ownKeys], by simp [ownTexts]⟩
  | object entries ih =>
      intro depth
      rw [inspect, nodes]
      split_ifs with hdepth
      · exact meets_fail fun h => absurd (h _ List.mem_cons_self).level (by simpa using hdepth)
      · refine (meets_everyEntry ih).congr ?_ ?_
        · rw [keyTotal_cons, ownKeys, List.length_map]
        · rw [List.forall_mem_cons, and_congr_left_iff]
          exact fun _ => ⟨fun h => ⟨by simpa using hdepth, h, by simp [ownTexts]⟩, fun h => h.key⟩

theorem bounded_iff (value : Value) :
    Bounded value ↔ byteLength (stringify value) ≤ 4096 ∧ (keys value).length ≤ 20 ∧
      ∀ node ∈ nodes 0 value, NodeBounded node := by
  constructor
  · intro h
    refine ⟨h.size, h.count, fun node hnode => ⟨h.level node hnode, fun key hkey => ?_,
      fun text htext => ?_⟩⟩
    · exact h.key key (List.mem_flatMap.mpr ⟨node, hnode, hkey⟩)
    · exact h.text text (List.mem_flatMap.mpr ⟨node, hnode, htext⟩)
  · rintro ⟨hsize, hcount, hnodes⟩
    refine ⟨hsize, fun node hnode => (hnodes node hnode).level, hcount, fun key hkey => ?_,
      fun text htext => ?_⟩
    · obtain ⟨node, hnode, hkey⟩ := List.mem_flatMap.mp hkey
      exact (hnodes node hnode).key key hkey
    · obtain ⟨node, hnode, htext⟩ := List.mem_flatMap.mp htext
      exact (hnodes node hnode).text text htext

theorem isBoundedMetadata_iff_bounded (value : Value) :
    isBoundedMetadata value ↔ Bounded value := by
  obtain ⟨hwalk, _⟩ := meets_inspect value 0 0 (Nat.zero_le 20)
  rw [bounded_iff, isBoundedMetadata]
  split_ifs with hsize
  · simp [Nat.not_le.mpr hsize]
  · rw [hwalk, Nat.zero_add]
    exact ⟨fun h => ⟨Nat.not_lt.mp hsize, h⟩, fun h => h.2⟩

theorem perm_ownKeys {value value' : Value} (h : Reordered value value') :
    (ownKeys value).Perm (ownKeys value') := by
  induction h with
  | refl => exact List.Perm.refl _
  | trans _ _ ih ih' => exact ih.trans ih'
  | items | item => exact List.Perm.refl _
  | entries hperm => exact hperm.map _
  | entry => simp [ownKeys]

theorem ownTexts_eq {value value' : Value} (h : Reordered value value') :
    ownTexts value = ownTexts value' := by
  induction h with
  | trans _ _ ih ih' => exact ih.trans ih'
  | _ => rfl

/-- A value in another order is within the limits as well. -/
theorem Bounded.reordered {value value' : Value} (h : Bounded value)
    (horder : Reordered value value') : Bounded value' := by
  have hlevels := perm_collect (fun node => [node.1]) (fun _ _ _ _ => List.Perm.refl _) horder 0
  have hkeys : (keys value).Perm (keys value') :=
    perm_collect (fun node => ownKeys node.2) (fun _ _ _ => perm_ownKeys) horder 0
  have htexts : (texts value).Perm (texts value') :=
    perm_collect (fun node => ownTexts node.2) (fun _ _ _ h => List.Perm.of_eq (ownTexts_eq h))
      horder 0
  refine ⟨?_, fun node hnode => ?_, ?_, fun key hkey => ?_, fun text htext => ?_⟩
  · rw [← byteLength_stringify_eq horder]
    exact h.size
  · have hlevel := hlevels.mem_iff.mpr
      (List.mem_flatMap.mpr ⟨node, hnode, List.mem_singleton_self _⟩)
    obtain ⟨node', hnode', heq⟩ := List.mem_flatMap.mp hlevel
    rw [List.mem_singleton.mp heq]
    exact h.level node' hnode'
  · rw [← hkeys.length_eq]
    exact h.count
  · exact h.key key (hkeys.mem_iff.mpr hkey)
  · exact h.text text (htexts.mem_iff.mpr htext)

/-- The metadata that is accepted is the metadata within the limits, in whatever order its
entries and elements stand. -/
theorem isBoundedMetadata_iff (value : Value) :
    (isBoundedMetadata value ↔ Bounded value) ∧
      ∀ value', Reordered value value' → isBoundedMetadata value' = isBoundedMetadata value := by
  refine ⟨isBoundedMetadata_iff_bounded value, fun value' horder => ?_⟩
  rw [Bool.eq_iff_iff, isBoundedMetadata_iff_bounded, isBoundedMetadata_iff_bounded]
  exact ⟨fun h => h.reordered horder.symm, fun h => h.reordered horder⟩

/-- An object with one key, at the level of its argument below the root. -/
def nested : Nat → Value
  | 0 => .object []
  | level + 1 => .object [(encode ['k'], nested level)]

example : isBoundedMetadata (nested 4) = true ∧ isBoundedMetadata (nested 5) = false := by
  decide +kernel

/-- Two entries in both orders. -/
theorem isBoundedMetadata_swapped :
    isBoundedMetadata (.object [(encode ['b'], .null), (encode ['a'], nested 3)]) =
      isBoundedMetadata (.object [(encode ['a'], nested 3), (encode ['b'], .null)]) :=
  (isBoundedMetadata_iff (.object [(encode ['a'], nested 3), (encode ['b'], .null)])).2 _
    (Reordered.entries (List.Perm.swap _ _ _))

end SmsNotification.BoundedMetadata
