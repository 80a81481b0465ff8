import Cartograph.Toml.Scalar

/-!
# Reading TOML

A text is a sequence of lines: headers, and entries that belong to the header above them
(`sections?`). A header names a table by its path, or adds a member to a list of tables; what
stands under it is put there (`Table.insert?`). A table may have one header only, and a path that
leads through a list of tables leads through its last member.

A key in an entry may be a path of its own, which leads through tables made by such keys only
(`addItem?`). A name may come twice in a table: the record that is decoded from it decides whether
that matters (`Document.record?`).
-/

namespace Cartograph.Toml

/-! ### Values -/

/-- What a key stands for: a value, or a table that the keys of entries have made. -/
inductive Item
  | value (d : Document)
  | dotted (entries : List (String × Item))

/-- The entries of a table in the order of the text. -/
abbrev Entries := List (String × Item)

mutual

/-- The document of an item. -/
def Item.toDocument : Item → Document
  | .value d => d
  | .dotted es => .fields (entriesDocuments es)

/-- The documents of entries. -/
def entriesDocuments : Entries → List (Document.Key × Document)
  | [] => []
  | (name, i) :: es => Document.entry name i.toDocument :: entriesDocuments es

end

/-- Changes the first item of a name; `none` stands for a name that is missing. -/
def changeFirst? {α : Type} (name : String) (f : Option α → Option α) :
    List (String × α) → Option (List (String × α))
  | [] => (f none).map fun a => [(name, a)]
  | (k, a) :: es =>
    if k = name then (f (some a)).map fun b => (k, b) :: es
    else (changeFirst? name f es).map ((k, a) :: ·)

/-- Adds an entry whose key is a path of names. -/
def addItem? (d : Document) : List String → Entries → Option Entries
  | [], _ => none
  | [name], es => some (es ++ [(name, .value d)])
  | name :: path, es =>
    changeFirst? name (fun
      | none => (addItem? d path []).map .dotted
      | some (.dotted inner) => (addItem? d path inner).map .dotted
      | some (.value _) => none) es

mutual

/-- A value and what follows it. The first number bounds the nesting of calls. -/
def value? : Nat → List Char → Option (Document × List Char)
  | 0, _ => none
  | fuel + 1, cs =>
    match cs with
    | '[' :: rest => items? fuel [] (gap false rest)
    | '\x7b' :: rest =>
      match spaces rest with
      | '\x7d' :: rest => some (.fields [], rest)
      | rest => inlineEntries? fuel [] rest
    | _ =>
      match string? true cs with
      | some (s, rest) => some (.text (String.ofList s), rest)
      | none => word? cs

/-- The members of a list, of which `done` (in reverse) have been read. -/
def items? : Nat → List Document → List Char → Option (Document × List Char)
  | 0, _, _ => none
  | fuel + 1, done, cs =>
    match cs with
    | ']' :: rest => some (.list done.reverse, rest)
    | _ => do
      let (d, rest) ← value? fuel cs
      match gap false rest with
      | ',' :: rest => items? fuel (d :: done) (gap false rest)
      | ']' :: rest => pure (.list (d :: done).reverse, rest)
      | _ => none

/-- The entries of a table in braces, which stands on one line. -/
def inlineEntries? : Nat → Entries → List Char → Option (Document × List Char)
  | 0, _, _ => none
  | fuel + 1, done, cs => do
    let (path, rest) ← key? cs
    match rest with
    | '=' :: rest => do
      let (d, rest) ← value? fuel (spaces rest)
      let done ← addItem? d path done
      match spaces rest with
      | ',' :: rest => inlineEntries? fuel done (spaces rest)
      | '\x7d' :: rest => pure (.fields (entriesDocuments done), rest)
      | _ => none
    | _ => none

end

/-! ### Lines -/

/-- A header with the entries under it. -/
structure Section where
  path : List String
  /-- Whether the header adds a member to a list of tables. -/
  isMember : Bool
  entries : Entries

/-- A header, of which the first bracket has been read. -/
def header? : List Char → Option (Section × List Char)
  | '[' :: cs => do
    let (path, rest) ← key? (spaces cs)
    match rest with
    | ']' :: ']' :: rest => pure (⟨path, true, []⟩, ← lineEnd? rest)
    | _ => none
  | cs => do
    let (path, rest) ← key? (spaces cs)
    match rest with
    | ']' :: rest => pure (⟨path, false, []⟩, ← lineEnd? rest)
    | _ => none

/-- A section with the entry that is next. -/
def Section.addLine? (s : Section) (cs : List Char) : Option (Section × List Char) := do
  let (path, rest) ← key? cs
  match rest with
  | '=' :: rest => do
    let (d, rest) ← value? (cs.length + 1) (spaces rest)
    let entries ← addItem? d path s.entries
    pure ({ s with entries := entries }, ← lineEnd? rest)
  | _ => none

/-- The sections from the open one to the end. -/
def sections? (current : Section) (cs : List Char) : Option (List Section) :=
  match gap false cs with
  | [] => some [current]
  | c :: rest =>
    if c = '[' then
      match header? rest with
      | none => none
      | some (next, after) =>
        if _h : after.length < cs.length then (sections? next after).map (current :: ·) else none
    else
      match current.addLine? (c :: rest) with
      | none => none
      | some (next, after) => if _h : after.length < cs.length then sections? next after else none
termination_by cs.length

/-! ### Tables -/

/-- A table: its entries once its header has come, and the tables and lists of tables in it. -/
inductive Table
  | mk (own : Option Entries) (tables : List (String × Table))
    (members : List (String × List Table))

namespace Table

/-- The table that nothing is known of. -/
def empty : Table := mk none [] []

/-- Changes the last member of a list. -/
def changeLast? {α : Type} (f : α → Option α) : List α → Option (List α)
  | [] => none
  | [a] => (f a).map ([·])
  | a :: as => (changeLast? f as).map (a :: ·)

/-- Puts the entries of a section at the end of its path. -/
def insert? (isMember : Bool) (entries : Entries) : List String → Table → Option Table
  | [], mk own tables members =>
    if isMember || own.isSome then none else some (mk (some entries) tables members)
  | name :: path, mk own tables members =>
    if isMember && path.isEmpty then
      let member := mk (some entries) [] []
      if tables.any (·.1 == name) then none
      else (changeFirst? name (fun ms => some (ms.getD [] ++ [member])) members).map
        (mk own tables ·)
    else if members.any (·.1 == name) then
      (changeFirst? name (fun ms =>
        changeLast? (insert? isMember entries path) (ms.getD [])) members).map (mk own tables ·)
    else
      (changeFirst? name (fun t => insert? isMember entries path (t.getD empty)) tables).map
        (mk own · members)

mutual

/-- The document of a table. -/
def toDocument : Table → Document
  | mk own tables members =>
    .fields (entriesDocuments (own.getD []) ++ tablesDocuments tables ++ membersDocuments members)

/-- The documents of named tables. -/
def tablesDocuments : List (String × Table) → List (Document.Key × Document)
  | [] => []
  | (name, t) :: ts => Document.entry name t.toDocument :: tablesDocuments ts

/-- The documents of named lists of tables. -/
def membersDocuments : List (String × List Table) → List (Document.Key × Document)
  | [] => []
  | (name, ms) :: rest =>
    Document.entry name (.list (listDocuments ms)) :: membersDocuments rest

/-- The documents of tables. -/
def listDocuments : List Table → List Document
  | [] => []
  | t :: ts => t.toDocument :: listDocuments ts

end

end Table

/-- The text without the carriage returns that stand before line ends. -/
def unifyLineEnds : List Char → List Char
  | '\r' :: '\n' :: rest => '\n' :: unifyLineEnds rest
  | c :: rest => c :: unifyLineEnds rest
  | [] => []

/-- The text without a byte order mark at its beginning. -/
def dropOrderMark : List Char → List Char
  | '\ufeff' :: rest => rest
  | cs => cs

/-- The table that a text holds. -/
def parse? (s : String) : Option Document := do
  let sections ← sections? ⟨[], false, []⟩ (unifyLineEnds (dropOrderMark s.toList))
  let root ← sections.foldlM (fun t x => t.insert? x.isMember x.entries x.path) Table.empty
  pure root.toDocument

end Cartograph.Toml
