import TypeAtlas.Data

/-!
# Tables under construction

A TOML document builds its tables bit by bit: a header opens a table, a pair puts a
value under a key, and dotted keys open tables on the way. How a table came to be
decides what may still be done with it, so a `Node` remembers it until the document is
read:

* a table with a header of its own is complete after it and has no second one;
* a table that a longer header implies may still get its header;
* a table that a dotted key opened grows by dotted keys only.
-/

namespace TypeAtlas.Toml

/-- **What is under a key** while the document is read. -/
inductive Node where
  /-- A value, which nothing extends. -/
  | value (value : Data)
  /-- A table: whether it is implied by a longer path, whether this path is a dotted
  key, and its entries. -/
  | table (implied dotted : Bool) (entries : List (String × Node))
  /-- A list of tables: the entries of the earlier ones, the last one first, and those
  of the table that is open. -/
  | tables (earlier : List (List (String × Node))) (entries : List (String × Node))

namespace Node

/-- What a path of keys does to the entries of a table: at its end the change is made to
the entries there, or nothing comes of it. `dotted` says whether the path is a dotted
key; only such a path must not enter a table that has a header. The change is told
whether the table it is made to was opened by a dotted key. -/
def descend (dotted : Bool)
    (change : Bool → List (String × Node) → Option (List (String × Node))) :
    List String → Bool → List (String × Node) → Option (List (String × Node))
  | [], byDots, entries => change byDots entries
  | key :: path, _, entries =>
    match Entries.get? key entries with
    | none =>
      (descend dotted change path dotted []).map fun inner =>
        Entries.set key (table true dotted inner) entries
    | some (value _) => none
    | some (table implied byDots inner) =>
      if dotted ∧ !implied then none
      else
        (descend dotted change path byDots inner).map fun inner =>
          Entries.set key (table implied byDots inner) entries
    | some (tables earlier inner) =>
      (descend dotted change path false inner).map fun inner =>
        Entries.set key (tables earlier inner) entries

/-- **A pair**: the last key of a dotted key gets a value in the table that the others
lead to. The key must be new, and a dotted key must not end in a table that none
opened. -/
def putPair (path : List String) (key : String) (value : Data)
    (entries : List (String × Node)) : Option (List (String × Node)) :=
  descend true
    (fun byDots inner =>
      if byDots = path.isEmpty ∨ (Entries.get? key inner).isSome then none
      else some (Entries.set key (Node.value value) inner))
    path false entries

/-- **A header**: it opens a table that is new or that only longer headers imply. -/
def openTable (path : List String) (key : String) (entries : List (String × Node)) :
    Option (List (String × Node)) :=
  descend false
    (fun _ inner =>
      match Entries.get? key inner with
      | none => some (Entries.set key (table false false []) inner)
      | some (table true false content) =>
        some (Entries.set key (table false false content) inner)
      | some _ => none)
    path false entries

/-- **A header of a list of tables**: it opens a further table of a list that is new or
was opened in this way. -/
def openListed (path : List String) (key : String) (entries : List (String × Node)) :
    Option (List (String × Node)) :=
  descend false
    (fun _ inner =>
      match Entries.get? key inner with
      | none => some (Entries.set key (tables [] []) inner)
      | some (tables earlier content) =>
        some (Entries.set key (tables (content :: earlier) []) inner)
      | some _ => none)
    path false entries

mutual

/-- The document value of what is under a key. -/
def toData : Node → Data
  | value d => d
  | table _ _ entries => .map (entriesToData entries)
  | tables earlier entries =>
    .list ((tablesToData earlier).reverse ++ [.map (entriesToData entries)])

/-- The document values of the entries of a table. -/
def entriesToData : List (String × Node) → List (String × Data)
  | [] => []
  | (key, node) :: rest => (key, toData node) :: entriesToData rest

/-- The document values of several tables. -/
def tablesToData : List (List (String × Node)) → List Data
  | [] => []
  | entries :: rest => .map (entriesToData entries) :: tablesToData rest

end

end Node

end TypeAtlas.Toml
