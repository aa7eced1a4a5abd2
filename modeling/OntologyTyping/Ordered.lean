/-!
Sets and tables as lists in increasing order.

A set lists its elements and a table its entries by key, each once, so two sets with the same elements are equal lists.
-/

namespace OntologyTyping.Ordered

variable {α κ ν : Type}

/-- Puts an element into a set. -/
def insert [Ord α] (a : α) : List α → List α
  | [] => [a]
  | b :: rest =>
    match compare a b with
    | .lt => a :: b :: rest
    | .eq => a :: rest
    | .gt => b :: insert a rest

/-- The elements of both sets. -/
def union [Ord α] (s t : List α) : List α :=
  t.foldl (fun acc a => insert a acc) s

/-- The set of the elements of a list. -/
def ofList [Ord α] (l : List α) : List α :=
  union [] l

/-- Writes an entry into a table, over the one that is there. -/
def put [Ord κ] (k : κ) (v : ν) : List (κ × ν) → List (κ × ν)
  | [] => [(k, v)]
  | e :: rest =>
    match compare k e.1 with
    | .lt => (k, v) :: e :: rest
    | .eq => (k, v) :: rest
    | .gt => e :: put k v rest

/-- The table of a list of entries; of two entries under one key the later stays. -/
def tableOf [Ord κ] (entries : List (κ × ν)) : List (κ × ν) :=
  entries.foldl (fun table e => put e.1 e.2 table) []

/-- The order of entries: by key, then by value. -/
def compareEntries [Ord κ] [Ord ν] (a b : κ × ν) : Ordering :=
  (compare a.1 b.1).then (compare a.2 b.2)

/-- The order of tables: entry by entry, a shorter table before its extensions. -/
def compareTables [Ord κ] [Ord ν] (a b : List (κ × ν)) : Ordering :=
  List.compareLex compareEntries a b

/-- Drops each element that equals the one before it. -/
def dropRepeats (cmp : α → α → Ordering) : List α → List α
  | [] => []
  | [a] => [a]
  | a :: b :: rest => if cmp a b = .eq then dropRepeats cmp (b :: rest) else a :: dropRepeats cmp (b :: rest)

/-- The elements of a list in increasing order, each once. -/
def sortDistinct (cmp : α → α → Ordering) (l : List α) : List α :=
  dropRepeats cmp (l.mergeSort fun a b => (cmp a b).isLE)

end OntologyTyping.Ordered
