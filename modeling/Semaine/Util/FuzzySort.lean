import Semaine.Library.AdjacentSort
import Semaine.Library.JavaFloat
import Semaine.Library.JavaText

/-! `eu.semaine.util.FuzzySort`: an order of items from wishes about neighbours and ends. The set
of relations, and each set that is built, is a list in some order. -/
namespace Semaine.Util
open JavaText JavaFloat

variable {α D : Type}

structure FuzzySortable (α : Type) where
  payload : α
  isInitial : Bool
  isFinal : Bool
  notBoth : (isInitial && isFinal) = false
  deriving DecidableEq

theorem notBoth_neither : (false && false) = false := rfl

structure FuzzySortableRelation (α : Type) where
  first : FuzzySortable α
  second : FuzzySortable α
  different : first.payload ≠ second.payload

inductive SortFailure where
  | nullPointer (message : Option Text)
  | illegalArgument (message : Text)
  | runtime (message : Text)

namespace FuzzySort

variable [DecidableEq α]

def add (set : List (FuzzySortable α)) (x : FuzzySortable α) : List (FuzzySortable α) :=
  if x.payload ∈ set.map FuzzySortable.payload then set else set ++ [x]

structure ItemSets (α : Type) where
  itemSet : List (FuzzySortable α)
  initialSet : List (FuzzySortable α)
  finalSet : List (FuzzySortable α)

def ItemSets.empty : ItemSets α := ⟨[], [], []⟩

/-- With `enforceInitialFinal`, initial and final items are kept out of the set of items. -/
def ItemSets.add (enforceInitialFinal : Bool) (sets : ItemSets α) (x : FuzzySortable α) :
    ItemSets α :=
  if enforceInitialFinal && x.isInitial then
    { sets with initialSet := FuzzySort.add sets.initialSet x }
  else if enforceInitialFinal && x.isFinal then
    { sets with finalSet := FuzzySort.add sets.finalSet x }
  else
    { sets with itemSet := FuzzySort.add sets.itemSet x }

def collect (enforceInitialFinal : Bool) (relations : List (FuzzySortableRelation α)) :
    ItemSets α :=
  relations.foldl (fun sets r =>
    (sets.add enforceInitialFinal r.first).add enforceInitialFinal r.second) .empty

def items2index (index2items : List (FuzzySortable α)) (o : FuzzySortable α) : Option Nat :=
  index2items.findIdx? fun item => decide (item.payload = o.payload)

variable (d : Comparisons D)

structure Targets (D : Type) where
  posInitial : D
  posFinal : D
  posOthers : D

def targets (enforceInitialFinal : Bool) (sets : ItemSets α) : Targets D :=
  let ends := if enforceInitialFinal then sets.initialSet.length + sets.finalSet.length else 0
  let posFinal := d.ofInt (sets.itemSet.length + ends : Nat)
  { posInitial := d.ofInt 0
    posFinal := posFinal
    posOthers := d.div posFinal (d.ofInt 2) }

def equalityThreshold (threshold posFinal : D) : D :=
  if d.eq threshold (d.ofInt 0) then d.billionth
  else if d.isNaN threshold then d.div posFinal (d.ofInt 50)
  else threshold

/-- A row of `new double[rows][numItems]`. -/
def zeroRow (numItems : Nat) : List D := List.replicate numItems (d.ofInt 0)

def absoluteRow (numItems j : Nat) : List D := (zeroRow d numItems).set j (d.ofInt 1)

def targetPos (t : Targets D) (item : FuzzySortable α) : D :=
  if item.isInitial then t.posInitial
  else if item.isFinal then t.posFinal
  else t.posOthers

def needIndex (index2items : List (FuzzySortable α)) (o : FuzzySortable α) :
    Except SortFailure Nat :=
  match items2index index2items o with
  | some k => .ok k
  | none => .error (.nullPointer none)

/-- A relation to an item that is not part of the optimisation is one to an end, and a relation
between two such items is no constraint. -/
def relationRow (enforceInitialFinal : Bool) (t : Targets D)
    (index2items : List (FuzzySortable α)) (r : FuzzySortableRelation α) :
    Except SortFailure (List D × D) := do
  let zeros := zeroRow d index2items.length
  let firstFixed := r.first.isInitial || r.first.isFinal
  let secondFixed := r.second.isInitial || r.second.isFinal
  if enforceInitialFinal && (firstFixed || secondFixed) then
    if firstFixed && secondFixed then
      return (zeros, d.ofInt 0)
    else if firstFixed then
      let kSecond ← needIndex index2items r.second
      let position := if r.first.isInitial then t.posInitial else t.posFinal
      return (zeros.set kSecond (d.ofInt 1), d.add position (d.ofInt 1))
    else
      let kFirst ← needIndex index2items r.first
      let position := if r.second.isInitial then t.posInitial else t.posFinal
      return (zeros.set kFirst (d.ofInt 1), d.sub position (d.ofInt 1))
  else
    let kFirst ← needIndex index2items r.first
    let kSecond ← needIndex index2items r.second
    return ((zeros.set kFirst (d.ofInt (-1))).set kSecond (d.ofInt 1), d.ofInt 1)

def compare (index2items : List (FuzzySortable α)) (rawPositions : Nat → D) (threshold : D)
    (o1 o2 : FuzzySortable α) : Option Int := do
  let index1 ← items2index index2items o1
  let index2 ← items2index index2items o2
  if d.lt (d.abs (d.sub (rawPositions index1) (rawPositions index2))) threshold then
    return 0
  else
    return d.compare (rawPositions index1) (rawPositions index2)

/-- The result so far, its last set, and the sortable that was added last. -/
structure Grouping (α : Type) where
  earlier : List (List (FuzzySortable α))
  current : Option (List (FuzzySortable α) × FuzzySortable α)

def Grouping.result (g : Grouping α) : List (List (FuzzySortable α)) :=
  g.earlier ++ (g.current.map Prod.fst).toList

def groupStep (cmp : FuzzySortable α → FuzzySortable α → Int) (g : Grouping α)
    (currentSortable : FuzzySortable α) : Grouping α :=
  match g.current with
  | none => ⟨g.earlier, some (add [] currentSortable, currentSortable)⟩
  | some (currentSet, prevSortable) =>
    if cmp prevSortable currentSortable < 0 then
      ⟨g.earlier ++ [currentSet], some (add [] currentSortable, currentSortable)⟩
    else
      ⟨g.earlier, some (add currentSet currentSortable, currentSortable)⟩

def group (cmp : FuzzySortable α → FuzzySortable α → Int) (sortedItems : List (FuzzySortable α)) :
    List (List (FuzzySortable α)) :=
  (sortedItems.foldl (groupStep cmp) ⟨[], none⟩).result

abbrev ArraysSort (α : Type) :=
  (FuzzySortable α → FuzzySortable α → Int) → List (FuzzySortable α) → List (FuzzySortable α)

def comparator (index2items : List (FuzzySortable α)) (rawPositions : Nat → D) (threshold : D)
    (o1 o2 : FuzzySortable α) : Int :=
  (compare d index2items rawPositions threshold o1 o2).getD 0

def condense (arraysSort : ArraysSort α) (index2items : List (FuzzySortable α))
    (rawPositions : Nat → D) (threshold : D) : List (List (FuzzySortable α)) :=
  let cmp := comparator d index2items rawPositions threshold
  group cmp (arraysSort cmp index2items)

/-- The order in which a set is gone through, the least squares solution, and sorting. -/
structure Platform (α D : Type) where
  iteration : List (FuzzySortable α) → List (FuzzySortable α)
  solve : List (List D) → List D → Except SortFailure (Nat → D)
  arraysSort : ArraysSort α

/-- The numbered items with their computed positions are put in order between the ends. -/
def assemble (enforceInitialFinal : Bool) (sets : ItemSets α)
    (groups : List (List (FuzzySortable α))) : List (List (FuzzySortable α)) :=
  if enforceInitialFinal then
    (if sets.initialSet.isEmpty then [] else [sets.initialSet]) ++ groups ++
      (if sets.finalSet.isEmpty then [] else [sets.finalSet])
  else groups

def sortItems (platform : Platform α D) (enforceInitialFinal : Bool) (threshold : D)
    (relations : List (FuzzySortableRelation α)) :
    Except SortFailure (List (List (FuzzySortable α))) := do
  let sets := collect enforceInitialFinal relations
  let index2items := platform.iteration sets.itemSet
  let t := targets d enforceInitialFinal sets
  let constraints ← relations.mapM (relationRow d enforceInitialFinal t index2items)
  let rows := (List.range index2items.length).map (absoluteRow d index2items.length)
  let x ← platform.solve (rows ++ constraints.map Prod.fst)
    (index2items.map (targetPos t) ++ constraints.map Prod.snd)
  return assemble enforceInitialFinal sets
    (condense d platform.arraysSort index2items x (equalityThreshold d threshold t.posFinal))

def sort (platform : Platform α D) (relations : Option (List (FuzzySortableRelation α)))
    (enforceInitialFinal : Bool) (threshold : D) :
    Except SortFailure (List (List (FuzzySortable α))) :=
  match relations with
  | none => .error (.nullPointer (some "null argument".toList))
  | some relations =>
    if relations.isEmpty then .error (.illegalArgument "empty argument".toList)
    else if d.lt threshold (d.ofInt 0) then
      .error (.illegalArgument "negative threshold".toList)
    else sortItems d platform enforceInitialFinal threshold relations

/-- `sort` with a threshold of its own. -/
def sortHeuristically (platform : Platform α D)
    (relations : Option (List (FuzzySortableRelation α))) (enforceInitialFinal : Bool) :
    Except SortFailure (List (List (FuzzySortable α))) :=
  sort d platform relations enforceInitialFinal d.nan

theorem items2index_none {index2items : List (FuzzySortable α)} {o : FuzzySortable α}
    (h : o.payload ∉ index2items.map FuzzySortable.payload) :
    items2index index2items o = none := by
  apply List.findIdx?_eq_none_iff.mpr
  intro item member
  apply decide_eq_false
  intro same
  exact h (same ▸ List.mem_map_of_mem member)

theorem items2index_some {index2items : List (FuzzySortable α)} {o : FuzzySortable α}
    (h : o.payload ∈ index2items.map FuzzySortable.payload) :
    ∃ k item, items2index index2items o = some k ∧ index2items[k]? = some item ∧
      item.payload = o.payload := by
  obtain ⟨item, member, same⟩ := List.mem_map.mp h
  have found : (items2index index2items o).isSome = true := by
    unfold items2index
    rw [List.findIdx?_isSome]
    exact List.any_eq_true.mpr ⟨item, member, decide_eq_true same⟩
  obtain ⟨k, index⟩ := Option.isSome_iff_exists.mp found
  obtain ⟨inside, here, _⟩ := List.findIdx?_eq_some_iff_getElem.mp index
  exact ⟨k, index2items[k], index, List.getElem?_eq_getElem inside, of_decide_eq_true here⟩

theorem add_new {set : List (FuzzySortable α)} {x : FuzzySortable α}
    (h : x.payload ∉ set.map FuzzySortable.payload) : add set x = set ++ [x] :=
  if_neg h

theorem foldl_groupStep (cmp : FuzzySortable α → FuzzySortable α → Int)
    (xs : List (FuzzySortable α)) (prev : FuzzySortable α) (g : List (FuzzySortable α))
    (gs : List (List (FuzzySortable α)))
    (distinct : (((prev :: g).reverse ++ xs).map FuzzySortable.payload).Nodup) :
    (xs.foldl (groupStep cmp) ⟨gs.reverse, some ((prev :: g).reverse, prev)⟩).result =
      List.splitBy.loop (fun a b => !decide (cmp a b < 0)) xs prev g gs := by
  induction xs generalizing prev g gs with
  | nil =>
    rw [List.splitBy.loop, List.reverse_cons (a := (prev :: g).reverse)]
    rfl
  | cons x xs ih =>
    rw [List.foldl_cons]
    rcases lt_or_ge (cmp prev x) 0 with smaller | level
    · have next : groupStep cmp ⟨gs.reverse, some ((prev :: g).reverse, prev)⟩ x =
          ⟨((prev :: g).reverse :: gs).reverse, some ([x].reverse, x)⟩ := by
        rw [List.reverse_cons (a := (prev :: g).reverse)]
        exact if_pos smaller
      have own : (([x].reverse ++ xs).map FuzzySortable.payload).Nodup := by
        rw [List.map_append] at distinct
        exact (List.nodup_append.mp distinct).2.1
      rw [next, ih x [] _ own, List.splitBy.loop, decide_eq_true smaller]
      rfl
    · have new : x.payload ∉ (prev :: g).reverse.map FuzzySortable.payload := by
        intro member
        rw [List.map_append, List.nodup_append] at distinct
        exact distinct.2.2 _ member x.payload (.head _) rfl
      have next : groupStep cmp ⟨gs.reverse, some ((prev :: g).reverse, prev)⟩ x =
          ⟨gs.reverse, some ((x :: prev :: g).reverse, x)⟩ := by
        rw [List.reverse_cons (a := x), ← add_new new]
        exact if_neg (not_lt.mpr level)
      rw [List.append_cons, ← List.reverse_cons (a := x)] at distinct
      rw [next, ih x (prev :: g) gs distinct, List.splitBy.loop,
        decide_eq_false (not_lt.mpr level)]
      rfl

theorem group_eq_groups (cmp : FuzzySortable α → FuzzySortable α → Int)
    {xs : List (FuzzySortable α)} (distinct : (xs.map FuzzySortable.payload).Nodup) :
    group cmp xs = AdjacentSort.groups cmp xs := by
  cases xs with
  | nil => rfl
  | cons x xs => exact foldl_groupStep cmp xs x [] [] distinct

end FuzzySort
end Semaine.Util
