import Gridbase.Statement.Select
import Gridbase.Store.Table

/-! # Searching a table

    Conditions over a row are true, false or unknown; a comparison with NULL is
    unknown.  AND binds more strongly than OR, and only true selects a row. -/

namespace Gridbase

/-! ## Truth -/

/-- A truth value that may be unknown. -/
abbrev Truth := Option Bool

namespace Truth

/-- False if one of both is false, and else unknown if one is. -/
def and : Truth → Truth → Truth
  | some false, _ => some false
  | _, some false => some false
  | some true, some true => some true
  | _, _ => none

/-- True if one of both is true, and else unknown if one is. -/
def or : Truth → Truth → Truth
  | some true, _ => some true
  | _, some true => some true
  | some false, some false => some false
  | _, _ => none

end Truth

namespace Search

/-! ## Comparisons -/

/-- The character of a lead byte and the bytes that continue it; a code that is none
    is replaced. -/
def decodedChar (lead : Nat) (continuation : List UInt8) : Char :=
  let start := if lead < 0xE0 then lead - 0xC0 else if lead < 0xF0 then lead - 0xE0
    else if lead < 0xF8 then lead - 0xF0 else 0
  -- the code grows in 32 bits, however many bytes go on with it
  let code := continuation.foldl (fun n b => (64 * n + b.toNat % 64) % 2 ^ 32) start
  if code < 0x80 || (0xD800 ≤ code && code < 0xE000) || code = 0xFFFE || code = 0xFFFF
      || 0x110000 ≤ code then Char.ofNat 0xFFFD
  else Char.ofNat code

/-- A byte that continues a character. -/
def continues (b : UInt8) : Bool := 0x80 ≤ b.toNat && b.toNat < 0xC0

/-- The characters that bytes stand for. -/
def decoded : List UInt8 → List Char
  | [] => []
  | b :: rest =>
      -- a byte that continues nothing stands for itself
      if b.toNat < 0xC0 then Char.ofNat b.toNat :: decoded rest
      else
        decodedChar b.toNat (rest.takeWhile continues) :: decoded (rest.dropWhile continues)
termination_by bytes => bytes.length
decreasing_by
  · simp
  · have := (List.dropWhile_suffix (l := rest) continues).length_le
    simp only [List.length_cons]
    omega

/-- The text of a cell for a pattern; it ends at the first zero character. -/
def patternText (s : Stored) : List Char :=
  let cs :=
    match s with
    | .null => []
    | .integer n => (Text.ofInt n.toInt).toList
    | .real x => (NumberText.ofReal x).toList
    | .text s => s.toList
    | .blob bytes => decoded bytes
  cs.takeWhile fun c => c.toNat != 0

/-- A text matches a pattern, where `%` stands for any text and `_` for one
    character; the case of ASCII letters does not count. -/
def likeMatch : List Char → List Char → Bool
  | [], text => text.isEmpty
  | p :: ps, text =>
      if p = '%' then
        likeMatch ps text || (match text with
          | [] => false
          | _ :: rest => likeMatch (p :: ps) rest)
      else
        match text with
        | [] => false
        | c :: rest => (p = '_' || p.toLower = c.toLower) && likeMatch ps rest
termination_by pattern text => pattern.length + text.length

/-- Whether an ordering satisfies an operator.  Patterns are compared in another way. -/
def accepts : Operator → Ordering → Bool
  | .eq, o => o == .eq
  | .ne, o => o != .eq
  | .lt, o => o == .lt
  | .le, o => o != .gt
  | .gt, o => o == .gt
  | .ge, o => o != .lt
  | .like, _ => false

/-- Compares a cell with an operand.  The answer is unknown if either is NULL, whatever
    the operator. -/
def compareCell (affinity : Affinity) (op : Operator) (cell operand : Stored) : Truth :=
  if cell.isNull || operand.isNull then none
  else
    match op with
    -- patterns look at the text of both sides, whatever the column prefers
    | .like => some (likeMatch (patternText operand) (patternText cell))
    | _ => some (accepts op (cell.compare (affinity.operand operand)))

/-! ## Conditions -/

/-- A condition whose column has been found, so that it has a truth for every row. -/
structure Term where
  connector : Connector
  position : Nat
  affinity : Affinity
  operator : Operator
  operand : Stored

/-- The truth of a term for a row. -/
def Term.eval (t : Term) (cells : Cells) : Truth :=
  compareCell t.affinity t.operator (Table.cellAt cells t.position) t.operand

/-- The truth of terms after others: `group` is the truth of the terms joined by
    AND so far, `total` that of the groups before it. -/
def evalFrom (cells : Cells) : Truth → Truth → List Term → Truth
  | total, group, [] => Truth.or total group
  | total, group, t :: rest =>
      match t.connector with
      | .and => evalFrom cells total (Truth.and group (t.eval cells)) rest
      | .or => evalFrom cells (Truth.or total group) (t.eval cells) rest

/-- The truth of a chain of terms; without terms it is true.  The connector of the
    first term joins nothing and is not looked at. -/
def eval (cells : Cells) : List Term → Truth
  | [] => some true
  | t :: rest => evalFrom cells (some false) (t.eval cells) rest

/-- A row is selected. -/
def selects (terms : List Term) (cells : Cells) : Bool := eval cells terms == some true

/-! ## Finding columns -/

/-- The position of a column that a statement names, in any spelling. -/
def column (t : Table) (name : String) : Except StoreFault Nat :=
  match t.position? name with
  | some i => .ok i
  | none => .error (.noColumn name)

/-- The positions of columns. -/
def columns (t : Table) : List String → Except StoreFault (List Nat)
  | [] => .ok []
  | name :: rest => do return (← column t name) :: (← columns t rest)

/-- The term for a condition. -/
def term (t : Table) (c : Condition) : Except StoreFault Term := do
  let i ← column t c.column
  return {
    connector := c.connector
    position := i
    affinity := (t.columns[i]?.map StoredColumn.affinity).getD .none
    operator := c.operator
    operand := Stored.ofValue c.value }

/-- The terms for conditions.  The first column that is not there is reported. -/
def terms (t : Table) : List Condition → Except StoreFault (List Term)
  | [] => .ok []
  | c :: rest => do return (← term t c) :: (← terms t rest)

/-! ## Ordering -/

/-- One key of an ordering. -/
structure SortKey where
  position : Nat
  direction : Direction

/-- The keys for the terms of an ordering. -/
def sortKeys (t : Table) : List OrderTerm → Except StoreFault (List SortKey)
  | [] => .ok []
  | o :: rest => do return ⟨← column t o.column, o.direction⟩ :: (← sortKeys t rest)

/-- The rows in the order they are visited.  An ordering that begins with the key,
    from the greatest down, visits them backwards. -/
def visited (t : Table) : List SortKey → List Cells
  | k :: _ =>
      if k.direction = .descending && t.key? = some k.position then t.scan.reverse else t.scan
  | [] => t.scan

/-- A row may stand before another.  Later keys decide where earlier ones agree. -/
def before : List SortKey → Cells → Cells → Bool
  | [], _, _ => true
  | k :: rest, a, b =>
      match (Table.cellAt a k.position).compare (Table.cellAt b k.position), k.direction with
      | .lt, .ascending => true
      | .gt, .ascending => false
      | .lt, .descending => false
      | .gt, .descending => true
      | .eq, _ => before rest a b

/-- The rows in the order of some keys; rows that agree in all keys stay in place. -/
def sorted (keys : List SortKey) (rows : List Cells) : List Cells :=
  -- a merge sort keeps rows that may stand either way in their order
  if keys.isEmpty then rows else rows.mergeSort (before keys)

/-! ## Results -/

/-- The row that some columns of a table row make, under their declared names. -/
def project (t : Table) (positions : List Nat) (cells : Cells) : Row :=
  Row.ofList (positions.map fun i => (t.columnName i, (Table.cellAt cells i).toValue))

end Search

end Gridbase
