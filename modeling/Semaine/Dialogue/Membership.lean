import Semaine.Dialogue.Verdicts

/-! When `List.contains` and `List.notContains` tell what is in a list, and with them
`CompareContains` and `CompareNotContains`. -/
namespace Semaine.Dialogue
open JavaText JavaFloat

section
variable {D : Type} (chars : Characters) (ops : Arithmetic D)

def hasItem (items : List (Item D)) (o : Item D) : Bool := items.any (sameValue ops · o)

/-- Both tests give the right verdict, and one of the two comparators holds. -/
structure TellsMembers (items : List (Item D)) (o : Item D) : Prop where
  contains : listContains ops true items o = .ok (hasItem ops items o)
  notContains : listContains ops false items o = .ok !hasItem ops items o
  compares : ∀ (abstractValue1 abstractValue2 : AbstractValue D) (is : InformationState D),
    abstractValue1.getValue chars ops is = .ok (some (.list items)) →
    abstractValue2.getValue chars ops is = .ok (some o) →
    CompareContains.isValid chars ops abstractValue1 abstractValue2 is =
        .ok (hasItem ops items o) ∧
      CompareNotContains.isValid chars ops abstractValue1 abstractValue2 is =
        .ok !hasItem ops items o

theorem containsValid_list (verdict : Bool) {abstractValue1 abstractValue2 : AbstractValue D}
    {is : InformationState D} {items : List (Item D)} {o : Item D} (atomic : o.isAtomic = true)
    (list : abstractValue1.getValue chars ops is = .ok (some (.list items)))
    (item : abstractValue2.getValue chars ops is = .ok (some o)) :
    containsValid chars ops verdict abstractValue1 abstractValue2 is =
      listContains ops verdict items o := by
  unfold containsValid bothValues catching
  simp only [list, item, bind, Except.bind, pure, Except.pure]
  exact if_pos atomic

theorem listContains_first (verdict : Bool) {first : Item D} (rest : List (Item D)) {o : Item D}
    (sameType : first.getType = o.getType) :
    listContains ops verdict (first :: rest) o =
      .ok (hasItem ops (first :: rest) o == verdict) := by
  unfold listContains
  exact if_neg (not_not_intro sameType)

theorem listContains_otherType (verdict : Bool) {first : Item D} (rest : List (Item D))
    {o : Item D} (otherType : first.getType ≠ o.getType) :
    listContains ops verdict (first :: rest) o = .ok false := by
  unfold listContains
  exact if_pos otherType

/-- The tests tell what is in a list exactly if its first item has the type of the value. -/
theorem tellsMembers_iff {o : Item D} (atomic : o.isAtomic = true) (items : List (Item D)) :
    TellsMembers chars ops items o ↔
      ∃ first, items.head? = some first ∧ first.getType = o.getType := by
  constructor
  · intro tells
    cases items with
    | nil => cases tells.contains
    | cons first rest =>
      refine ⟨first, rfl, ?_⟩
      by_contra otherType
      have contains := tells.contains
      have notContains := tells.notContains
      rw [listContains_otherType ops _ rest otherType, Except.ok.injEq] at contains notContains
      rw [← contains] at notContains
      cases notContains
  · rintro ⟨first, found, sameType⟩
    cases items with
    | nil => cases found
    | cons head rest =>
      cases found
      have contains := listContains_first ops true rest sameType
      have notContains := listContains_first ops false rest sameType
      rw [beq_true] at contains
      rw [beq_false] at notContains
      refine ⟨contains, notContains, fun abstractValue1 abstractValue2 is list item => ⟨?_, ?_⟩⟩
      · exact (containsValid_list chars ops true atomic list item).trans contains
      · exact (containsValid_list chars ops false atomic list item).trans notContains

end

theorem tellsMembers_iff_integer :
    TellsMembers ascii noDoubles [.integer 1, .double 5] (.integer 2) ↔
      ∃ first, [(Item.integer 1 : Item Rat), .double 5].head? = some first ∧
        first.getType = (Item.integer 2 : Item Rat).getType :=
  tellsMembers_iff ascii noDoubles rfl _

def oneInteger : InformationState Rat :=
  (InformationState.set [] "l._addlast".toList (.integer 1)).1

/-- A list from which its only item was removed, and a list of an integer and a double. -/
theorem tellsMembers_fails :
    (oneInteger.remove ascii "l._first".toList).1 = [("l".toList, .list [])] ∧
    (oneInteger.set "l._addlast".toList (.double 5)).1 =
      [("l".toList, .list [.integer 1, .double 5])] ∧
    ¬ TellsMembers ascii noDoubles [] (.integer 1) ∧
    ¬ TellsMembers ascii noDoubles [.integer 1, .double 5] (.double 5) := by
  refine ⟨rfl, rfl, ?_, ?_⟩
  · intro tells
    cases tells.contains
  · intro tells
    cases tells.contains

end Semaine.Dialogue
