import ProxyCensus.Decimal.Number

/-!
# Sorted numbers

Numbers from the least to the greatest, equal ones in the order in which they came. The numbers that
are already in order at the start, or that fall strictly, are kept as they are or turned round; each
of the others is put where a search by halves leads. Every number can be compared but the double that
is no number, and where that one ends up depends on this course. Main statement: sorting keeps every
number.
-/

namespace ProxyCensus.Decimal.Number

/-- The numbers at the start that fall strictly from the last one taken on, turned round and put in
front of those that are taken already; and the rest. -/
def falling (last : Number) (taken : List Number) : List Number → List Number × List Number
  | [] => (taken, [])
  | x :: rest => if x.less last then falling x (x :: taken) rest else (taken, x :: rest)

/-- The numbers at the start that do not fall below the last one taken, and the rest. -/
def rising (last : Number) : List Number → List Number × List Number
  | [] => ([], [])
  | x :: rest =>
    if x.less last then ([], x :: rest)
    else ((x :: (rising x rest).1), (rising x rest).2)

/-- The numbers at the start that rise, or that fall and are turned round; and the rest. -/
def firstRun : List Number → List Number × List Number
  | [] => ([], [])
  | [x] => ([x], [])
  | x :: y :: rest =>
    if y.less x then falling y [y, x] rest else (x :: (rising x (y :: rest)).1, (rising x (y :: rest)).2)

/-- The place of a number between two places of a sorted part, behind all that are not above it. -/
def placeIn (sorted : Array Number) (x : Number) (low high : Nat) : Nat :=
  if low < high then
    let middle := low + (high - low) / 2
    if x.less (sorted.getD middle x) then placeIn sorted x low middle
    else placeIn sorted x (middle + 1) high
  else low
  termination_by high - low

def insertInto (sorted : Array Number) (x : Number) : Array Number :=
  let place := placeIn sorted x 0 sorted.size
  (sorted.take place).push x ++ sorted.drop place

def sort (numbers : List Number) : List Number :=
  let (run, rest) := firstRun numbers
  (rest.foldl insertInto run.toArray).toList

theorem perm_insertInto (sorted : Array Number) (x : Number) :
    (insertInto sorted x).toList.Perm (x :: sorted.toList) := by
  have h : (insertInto sorted x).toList =
      sorted.toList.take (placeIn sorted x 0 sorted.size) ++
        x :: sorted.toList.drop (placeIn sorted x 0 sorted.size) := by
    simp only [insertInto, Array.toList_append, Array.toList_push, Array.take_eq_extract,
      Array.drop_eq_extract, Array.toList_extract, List.extract_eq_take_drop, List.drop_zero,
      Nat.sub_zero, List.append_assoc, List.singleton_append]
    rw [List.take_of_length_le (i := sorted.size - _) (by simp)]
  rw [h]
  refine List.perm_middle.trans ?_
  rw [List.take_append_drop]

theorem perm_falling (last : Number) (taken numbers : List Number) :
    ((falling last taken numbers).1 ++ (falling last taken numbers).2).Perm (taken ++ numbers) := by
  induction numbers generalizing last taken with
  | nil => exact List.Perm.refl _
  | cons x rest ih =>
    unfold falling
    split
    · exact (ih x (x :: taken)).trans List.perm_middle.symm
    · exact List.Perm.refl _

theorem rising_append (last : Number) (numbers : List Number) :
    (rising last numbers).1 ++ (rising last numbers).2 = numbers := by
  induction numbers generalizing last with
  | nil => rfl
  | cons x rest ih =>
    unfold rising
    split
    · rfl
    · simp only [List.cons_append, ih]

theorem perm_firstRun (numbers : List Number) :
    ((firstRun numbers).1 ++ (firstRun numbers).2).Perm numbers := by
  unfold firstRun
  split
  · exact List.Perm.refl _
  · exact List.Perm.refl _
  · rename_i x y rest
    split
    · exact (perm_falling y [y, x] rest).trans (List.Perm.swap x y rest)
    · rw [List.cons_append, rising_append]

theorem perm_foldl_insertInto (sorted : Array Number) (numbers : List Number) :
    (numbers.foldl insertInto sorted).toList.Perm (sorted.toList ++ numbers) := by
  induction numbers generalizing sorted with
  | nil => simp
  | cons x rest ih =>
    rw [List.foldl_cons]
    refine (ih (insertInto sorted x)).trans ?_
    refine ((perm_insertInto sorted x).append_right rest).trans ?_
    exact List.perm_middle.symm

theorem perm_sort (numbers : List Number) : (sort numbers).Perm numbers :=
  (perm_foldl_insertInto _ _).trans (perm_firstRun numbers)

end ProxyCensus.Decimal.Number
