import MethodSig.Console.Markup
import MethodSig.Console.Wrap
import MethodSig.Text.Lines

/-!
# Tables

A table has a title, a header and rows, and is drawn in a frame with heavy lines around its
header. Each column is as wide as its widest cell. If that is too much for the terminal, the
widest columns are made narrower until the table fits, and their cells are wrapped.
-/

namespace MethodSig

open Text

/-- A table of texts, all of which may hold markup. -/
structure Table where
  title : Option String
  header : List String
  rows : List (List String)
deriving DecidableEq, Repr

namespace Table

/-- The nearest whole number to a quotient. A half goes to the even neighbour. -/
def roundDiv (n d : Nat) : Nat :=
  let quotient := n / d
  if 2 * (n % d) < d then quotient
  else if d < 2 * (n % d) then quotient + 1
  else quotient + quotient % 2

def total (widths : List Nat) : Nat :=
  widths.foldr (· + ·) 0

/-- Takes columns away from the marked widths, in equal shares and at most a limit from each. -/
def reduce (limit : Nat) (excess marked : Nat) : List (Nat × Bool) → List Nat
  | [] => []
  | (width, false) :: rest => width :: reduce limit excess marked rest
  | (width, true) :: rest =>
    let taken := min limit (roundDiv excess marked)
    (width - taken) :: reduce limit (excess - taken) (marked - 1) rest

/-- One step towards widths that fit: the widest columns are made narrower, but not narrower than
the next widest. -/
def narrow (available : Nat) (widths : List Nat) : List Nat :=
  let excess := total widths - available
  let widest := widths.foldl max 0
  let next := (widths.filter (· != widest)).foldl max 0
  reduce (min excess (widest - next)) excess (widths.countP (· == widest))
    (widths.map fun width => (width, width == widest))

def collapse (available : Nat) (widths : List Nat) : List Nat :=
  if h : available < total widths ∧ total (narrow available widths) < total widths then
    have := h.2
    collapse available (narrow available widths)
  else widths
termination_by total widths

/-- The columns that a cell takes with the blanks around it. -/
def cellWidth (cell : List Char) : Nat :=
  ((Text.lines (cell.filter (!Wrap.isTerminalControl ·))).map width).foldl max 0 + 2

def naturalWidths (rows : List (List (List Char))) : List Nat :=
  (rows.map (·.map cellWidth)).foldl
    (fun widths row => widths.zipWith max row ++ row.drop widths.length) []

/-- The widths of the columns of some rows that fit into a terminal, given its width. -/
def widths (columns : Nat) (rows : List (List (List Char))) : List Nat :=
  let natural := naturalWidths rows
  let available := columns - (natural.length + 1)
  collapse available (natural.map (min available))

/-- A horizontal line of the frame: its left end, its stroke, its crossings and its right end. -/
def rule (left stroke crossing right : Char) (widths : List Nat) : List Char :=
  left :: [crossing].intercalate (widths.map (List.replicate · stroke)) ++ [right]

def cellLines (width : Nat) (cell : List Char) : List (List Char) :=
  (Wrap.lines (width - 2) .ellipsis cell).map fun line =>
    ' ' :: Wrap.padEnd (width - 2) line ++ [' ']

/-- The lines of a row, with the lines of the frame between its cells. -/
def row (bar : Char) (atBottom : Bool) (widths : List Nat) (cells : List (List Char)) :
    List (List Char) :=
  let columns := widths.zipWith cellLines cells
  let height := (columns.map List.length).foldl max 1
  let filled := (columns.zip widths).map fun (lines, width) =>
    let blank := List.replicate (height - lines.length) (List.replicate width ' ')
    if atBottom then blank ++ lines else lines ++ blank
  (List.range height).map fun n =>
    bar :: [bar].intercalate (filled.map fun lines => lines.getD n []) ++ [bar]

def titleLines (width : Nat) (title : List Char) : List (List Char) :=
  (Wrap.lines width .fold title).map fun line =>
    let line := Wrap.trimEnd line
    List.replicate ((width - Text.width line) / 2) ' ' ++ line

/-- The lines of a table on a terminal of the given width. -/
def render (columns : Nat) (table : Table) : Except Markup.UnopenedStyle (List (List Char)) := do
  let plain (s : String) := Markup.render s.toList
  let title ← table.title.mapM plain
  let header ← table.header.mapM plain
  let rows ← table.rows.mapM fun cells => cells.mapM plain
  let widths := widths columns (header :: rows)
  let above := match title with
    | some title => titleLines (total widths + widths.length + 1) title
    | none => []
  return above ++ [rule '┏' '━' '┳' '┓' widths] ++ row '┃' true widths header ++
    [rule '┡' '━' '╇' '┩' widths] ++ rows.flatMap (row '│' false widths) ++
    [rule '└' '─' '┴' '┘' widths]

end Table

end MethodSig
