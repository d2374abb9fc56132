/-
The listing of a label table.

A listing shows each binding once, by address and then by the bytes of the name,
in whatever order the bindings are met.  Where all names are legal the text tells
the bindings apart again.
-/

import Mathlib.Data.List.Sort
import RegisterMachine.Proofs.ByteOrder
import RegisterMachine.Proofs.LabelBindings
import RegisterMachine.Proofs.Lossless
import RegisterMachine.Proofs.Rendering

namespace RegisterMachine
namespace LabelTable

/-! ### The order of a listing -/

/-- By address, and among equal addresses by the bytes of the name. -/
def Precedes (left right : String × Nat) : Prop :=
  left.2 < right.2 ∨
    (left.2 = right.2 ∧ Text.bytes left.1 < Text.bytes right.1)

instance : Std.Irrefl Precedes where
  irrefl entry := by
    intro before
    rcases before with lower | lowerName
    · exact Nat.lt_irrefl _ lower
    · exact List.lt_irrefl _ lowerName.2

instance : Std.Antisymm Precedes where
  antisymm left right := by
    intro before after
    exfalso
    rcases before with lower | ⟨same, lowerName⟩
    · rcases after with higher | ⟨same, _⟩ <;> omega
    · rcases after with higher | ⟨_, higherName⟩
      · omega
      · exact List.lt_asymm lowerName higherName

theorem listingOrder_eq_lt_iff (left right : String × Nat) :
    listingOrder left right = .lt ↔ Precedes left right := by
  have names : compare left.1 right.1 = .lt ↔
      Text.bytes left.1 < Text.bytes right.1 := by
    rw [Text.bytes_lt_iff]
    exact compareOfLessAndEq_eq_lt
  rw [Precedes, ← names, ← Nat.compare_eq_lt, ← Nat.compare_eq_eq]
  exact Ordering.then_eq_lt

theorem eq_of_listingOrder_eq_eq {left right : String × Nat}
    (same : listingOrder left right = .eq) : left = right := by
  obtain ⟨addresses, names⟩ := Ordering.then_eq_eq.mp same
  exact Prod.ext (Std.LawfulEqOrd.eq_of_compare names)
    (Std.LawfulEqOrd.eq_of_compare addresses)

instance : Std.TransCmp listingOrder :=
  inferInstanceAs (Std.TransCmp (compareLex (compareOn Prod.snd) (compareOn Prod.fst)))

structure Lists (table : LabelTable) (entries : List (String × Nat)) : Prop where
  each : ∀ name address, (name, address) ∈ entries ↔
    table.get? name = some address
  rising : entries.Pairwise Precedes

theorem Lists.unique {table : LabelTable} {entries others : List (String × Nat)}
    (known : table.Lists entries) (knownToo : table.Lists others) :
    entries = others := by
  apply known.rising.eq_of_mem_iff knownToo.rising
  intro entry
  obtain ⟨name, address⟩ := entry
  rw [known.each, knownToo.each]

theorem listingOrder_total (left right : String × Nat) :
    ((listingOrder left right).isLE || (listingOrder right left).isLE) = true := by
  rw [Bool.or_eq_true]
  by_cases ordered : (listingOrder left right).isLE = true
  · exact .inl ordered
  · have greater := Std.OrientedCmp.lt_of_not_isLE ordered
    right
    rw [greater]
    rfl

theorem lists_mergeSort {table : LabelTable} {entries : List (String × Nat)}
    (distinct : entries.Nodup)
    (each : ∀ name address, (name, address) ∈ entries ↔
      table.get? name = some address) :
    table.Lists (entries.mergeSort fun left right =>
      (listingOrder left right).isLE) := by
  constructor
  · intro name address
    rw [List.mem_mergeSort, each]
  · have sorted := @List.pairwise_mergeSort _
      (fun left right => (listingOrder left right).isLE)
      (fun _ _ _ => Std.TransCmp.isLE_trans) listingOrder_total entries
    have apart : (entries.mergeSort fun left right =>
        (listingOrder left right).isLE).Nodup :=
      (List.mergeSort_perm entries _).nodup_iff.mpr distinct
    apply (sorted.and apart).imp
    intro left right parts
    obtain ⟨ordered, different⟩ := parts
    rcases Ordering.isLE_iff_eq_lt_or_eq_eq.mp ordered with before | same
    · exact (listingOrder_eq_lt_iff left right).mp before
    · exact absurd (eq_of_listingOrder_eq_eq same) different

theorem mem_bindings_iff (table : LabelTable) (name : String) (address : Nat) :
    (name, address) ∈ table.bindings.toList ↔ table.get? name = some address :=
  Std.ExtTreeMap.mem_toList_iff_getElem?_eq_some

theorem nodup_bindings (table : LabelTable) : table.bindings.toList.Nodup := by
  apply List.Nodup.of_map Prod.fst
  rw [Std.ExtTreeMap.map_fst_toList_eq_keys]
  exact table.nodup_keys

theorem lists_toList (table : LabelTable) : table.Lists table.toList :=
  lists_mergeSort table.nodup_bindings table.mem_bindings_iff

/-! ### The text of a listing -/

def entryText (entry : String × Nat) : String :=
  entry.1 ++ " -> " ++ Text.writeNat entry.2

def listingText (entries : List (String × Nat)) : String :=
  "[" ++ ", ".intercalate (entries.map entryText) ++ "]"

/-- The bindings may also be met in another order first. -/
structure Listed (table : LabelTable) : Prop where
  lists : table.Lists table.toList
  text : table.render = listingText table.toList
  anyOrder : ∀ entries : List (String × Nat), entries.Nodup →
    (∀ name address, (name, address) ∈ entries ↔
      table.get? name = some address) →
    entries.mergeSort (fun left right => (listingOrder left right).isLE) =
      table.toList

theorem listed (table : LabelTable) : table.Listed := by
  refine ⟨table.lists_toList, rfl, ?_⟩
  intro entries distinct each
  exact (lists_mergeSort distinct each).unique table.lists_toList

/-! ### Reading a listing back -/

def NamesLegal (table : LabelTable) : Prop :=
  ∀ name, table.contains name = true → Source.isLabelName name = true

abbrev LegalEntry : Type :=
  { entry : String × Nat // Source.isLabelName entry.1 = true }

theorem toList_entryText (entry : String × Nat) :
    (entryText entry).toList = entry.1.toList ++
      (' ' :: ['-', '>', ' '] ++ (Text.writeNat entry.2).toList) := by
  simp [entryText]

/-- A legal name ends at the blank before the arrow. -/
theorem separable_entryText :
    Text.Separable fun entry : LegalEntry => (entryText entry.val).toList := by
  have inName (entry : LegalEntry) :
      ∀ c ∈ entry.val.1.toList, Source.isWordChar c = true := by
    intro c member
    exact ((isPlainWord_of_isLabelName entry.property).2 c member).isWordChar
  have ends (tail : List Char) :
      ∀ c ∈ (' ' :: tail).head?, Source.isWordChar c = false := by
    intro c present
    cases present
    decide
  constructor
  intro entry twin rest other endsRest endsOther same
  rw [toList_entryText, toList_entryText] at same
  simp only [List.append_assoc, List.cons_append] at same
  obtain ⟨names, tails⟩ := Text.append_inj_of_run (inName entry) (inName twin)
    (ends _) (ends _) same
  have onward := @List.append_cancel_left _ [' ', '-', '>', ' '] _ _ tails
  obtain ⟨addresses, left⟩ := Text.separable_writeNat.cut endsRest endsOther onward
  refine ⟨Subtype.ext (Prod.ext ?_ addresses), left⟩
  exact String.toList_inj.mp names

theorem toList_listingText (entries : List LegalEntry) :
    (listingText (entries.map Subtype.val)).toList =
      '[' :: (List.intercalate [',', ' ']
        (entries.map fun entry => (entryText entry.val).toList) ++ [']']) := by
  simp only [listingText, String.toList_append, String.toList_intercalate,
    List.map_map]
  rfl

theorem listingText_cons_ne_nil (first : LegalEntry) (rest : List LegalEntry) :
    listingText ((first :: rest).map Subtype.val) ≠ listingText [] := by
  intro same
  have texts := congrArg String.toList same
  have empty : (listingText []).toList = ['[', ']'] := by
    decide
  rw [toList_listingText, empty, List.map_cons] at texts
  obtain ⟨later, front⟩ := Json.exists_intercalate_cons [',', ' ']
    (entryText first.val).toList (rest.map fun entry => (entryText entry.val).toList)
  have word := isPlainWord_of_isLabelName first.property
  rw [front, toList_entryText] at texts
  cases characters : first.val.1.toList with
  | nil => exact word.1 characters
  | cons c others =>
      rw [characters] at texts
      have closing : c = ']' := (List.cons.inj (List.cons.inj texts).2).1
      have plain := word.2 c (by rw [characters]; exact List.mem_cons_self)
      have notPlain : ¬ IsPlainChar ']' := by
        unfold IsPlainChar
        decide
      rw [closing] at plain
      exact notPlain plain

theorem listingText_injective {entries others : List LegalEntry}
    (same : listingText (entries.map Subtype.val) =
      listingText (others.map Subtype.val)) : entries = others := by
  cases entries with
  | nil =>
      cases others with
      | nil => rfl
      | cons second later =>
          exact absurd same.symm (listingText_cons_ne_nil second later)
  | cons first more =>
      cases others with
      | nil => exact absurd same (listingText_cons_ne_nil first more)
      | cons second later =>
          have closes : Text.ClosesItems ',' [']'] :=
            ⟨']', [], rfl, by decide, by decide⟩
          have texts := congrArg String.toList same
          rw [toList_listingText, toList_listingText] at texts
          obtain ⟨items, _⟩ := separable_entryText.intercalate (by decide)
            closes closes (List.cons.inj texts).2
          exact items

theorem NamesLegal.exists_entries {table : LabelTable} (legal : table.NamesLegal) :
    ∃ entries : List LegalEntry, entries.map Subtype.val = table.toList := by
  have legalEntries : ∀ entry ∈ table.toList,
      Source.isLabelName entry.1 = true := by
    intro entry member
    apply legal
    have bound := (table.lists_toList.each entry.1 entry.2).mp member
    rw [contains, bound]
    rfl
  exact ⟨table.toList.attachWith _ legalEntries, List.attachWith_map_subtype_val legalEntries⟩

theorem NamesLegal.eq_of_render_eq {table other : LabelTable}
    (legal : table.NamesLegal) (legalToo : other.NamesLegal)
    (same : table.render = other.render) : table = other := by
  obtain ⟨entries, shown⟩ := legal.exists_entries
  obtain ⟨others, shownToo⟩ := legalToo.exists_entries
  rw [table.listed.text, other.listed.text, ← shown, ← shownToo] at same
  have lists : table.toList = other.toList := by
    rw [← shown, ← shownToo, listingText_injective same]
  apply ext_get?
  intro name
  apply Option.ext
  intro address
  rw [← table.lists_toList.each, ← other.lists_toList.each, lists]

/-- After any requests a table has recorded the first addition of each name, and every
table is listed in one way.  Requests that end in the same bindings leave one table
and one text, and two tables of legal names with one text are the same. -/
theorem first_bindings_are_listed :
    (∀ requests, Records requests (afterAll requests)) ∧
    (∀ (table : LabelTable) name address, table.bindInPlace name address =
      match table.bind name address with
      | .ok extended => (.ok (), extended)
      | .error fault => (.error fault, table)) ∧
    (∀ table : LabelTable, table.Listed) ∧
    (∀ requests others : List Request,
      (∀ name, firstAdded? requests name = firstAdded? others name) →
        afterAll requests = afterAll others ∧
          (afterAll requests).render = (afterAll others).render) ∧
    ∀ table other : LabelTable, table.NamesLegal → other.NamesLegal →
      table.render = other.render → table = other := by
  refine ⟨records_afterAll, bindInPlace_eq, listed, ?_, ?_⟩
  · intro requests others agree
    have same : afterAll requests = afterAll others := by
      apply ext_get?
      intro name
      rw [get?_afterAll, get?_afterAll, agree]
    exact ⟨same, congrArg render same⟩
  · intro table other legal legalToo same
    exact legal.eq_of_render_eq legalToo same

end LabelTable
end RegisterMachine
