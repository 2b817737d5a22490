import QueryStats.Json.Numeral

/-!
# JSON tokens

The pieces that a JSON text is made of: marks, strings, and words, which are numbers or the names
of the three constants.  Blanks, tabs and line ends may stand between them.
-/

namespace QueryStats.Json

/-- A piece of a JSON text. -/
inductive Token where
  /-- A bracket, a comma or a colon. -/
  | mark (c : Char)
  | string (s : String)
  /-- A number, a truth value or `null`. -/
  | word (j : Json)
  deriving Repr, Inhabited

/-! ## Strings -/

/-- The character that a letter stands for after a backslash. -/
def unescape? (c : Char) : Option Char :=
  if c = '\x22' || c = '\\' || c = '/' then some c
  else if c = 'b' then some '\x08'
  else if c = 'f' then some '\x0c'
  else if c = 'n' then some '\n'
  else if c = 'r' then some '\r'
  else if c = 't' then some '\t'
  else none

/-- The value of a hexadecimal digit, in either case. -/
def hexValue? (c : Char) : Option Nat :=
  if c.isDigit then some (c.toNat - 48)
  else if 'a' ≤ c && c ≤ 'f' then some (c.toNat - 87)
  else if 'A' ≤ c && c ≤ 'F' then some (c.toNat - 55)
  else none

/-- The number that hexadecimal digits spell. -/
def ofHex? (ds : List Char) : Option Nat :=
  ds.foldlM (fun n c => (hexValue? c).map (16 * n + ·)) 0

/-- The character that a pair of surrogates stands for. -/
def ofSurrogates? (high low : Nat) : Option Char :=
  if 0xD800 ≤ high && high < 0xDC00 && 0xDC00 ≤ low && low < 0xE000 then
    some (Char.ofNat (0x10000 + (high - 0xD800) * 0x400 + (low - 0xDC00)))
  else none

/-- The character at the front of a string, and the text after it. -/
def readChar? : List Char → Option (Char × List Char)
  | [] => none
  | '\\' :: 'u' :: a :: b :: c :: d :: t => do
    let n ← ofHex? [a, b, c, d]
    if n.isValidChar then return (Char.ofNat n, t)
    match t with
    | '\\' :: 'u' :: a :: b :: c :: d :: t =>
      return (← ofSurrogates? n (← ofHex? [a, b, c, d]), t)
    | _ => none
  | '\\' :: c :: t => (unescape? c).map (·, t)
  | c :: t => if c = '\\' || c.toNat < 0x20 then none else some (c, t)

theorem length_of_readChar? {t rest : List Char} {c : Char} (h : readChar? t = some (c, rest)) :
    rest.length < t.length := by
  unfold readChar? at h
  split at h
  · simp at h
  · simp only [Option.bind_eq_bind, Option.bind_eq_some_iff] at h
    obtain ⟨n, -, h⟩ := h
    split at h
    · simp only [pure, Option.some.injEq, Prod.mk.injEq] at h
      obtain ⟨-, rfl⟩ := h
      simp only [List.length_cons]
      omega
    · split at h
      · simp only [Option.bind_eq_some_iff, pure, Option.some.injEq, Prod.mk.injEq] at h
        obtain ⟨_, -, _, -, -, rfl⟩ := h
        simp only [List.length_cons]
        omega
      · simp at h
  · simp only [Option.map_eq_some_iff, Prod.mk.injEq] at h
    obtain ⟨_, -, -, rfl⟩ := h
    simp only [List.length_cons]
    omega
  · split at h
    · simp at h
    · simp only [Option.some.injEq, Prod.mk.injEq] at h
      obtain ⟨-, rfl⟩ := h
      exact Nat.lt_succ_self _

/-- The characters up to the quote that ends a string, last one first, and the text after it. -/
def readChars? (before : List Char) (t : List Char) : Option (List Char × List Char) :=
  if t.head? = some '\x22' then some (before, t.drop 1)
  else
    match _h : readChar? t with
    | none => none
    | some (c, rest) => readChars? (c :: before) rest
termination_by t.length
decreasing_by exact length_of_readChar? ‹_›

theorem length_of_readChars? {before t cs rest : List Char}
    (h : readChars? before t = some (cs, rest)) : rest.length ≤ t.length := by
  fun_induction readChars? before t with
  | case1 before t _ =>
    simp only [Option.some.injEq, Prod.mk.injEq] at h
    obtain ⟨-, rfl⟩ := h
    exact (List.drop_sublist 1 t).length_le
  | case2 => simp at h
  | case3 before t _ c rest' hc ih =>
    have := length_of_readChar? hc
    have := ih h
    omega

/-! ## Tokens -/

/-- Whether a character may stand between tokens. -/
def isSpace (c : Char) : Bool := c = ' ' || c = '\t' || c = '\n' || c = '\r'

/-- Whether a character is a token by itself. -/
def isMark (c : Char) : Bool :=
  c = '[' || c = ']' || c = '\x7b' || c = '\x7d' || c = ',' || c = ':'

/-- Whether a character belongs to a word. -/
def isWordChar (c : Char) : Bool := c.isAlphanum || c = '+' || c = '-' || c = '.'

def ofWord? (w : List Char) : Option Json :=
  if w = ['n', 'u', 'l', 'l'] then some null
  else if w = ['t', 'r', 'u', 'e'] then some (bool true)
  else if w = ['f', 'a', 'l', 's', 'e'] then some (bool false)
  else number? w

def tokens? : List Char → Option (List Token)
  | [] => some []
  | c :: t =>
    if isSpace c then tokens? t
    else if isMark c then (.mark c :: ·) <$> tokens? t
    else if c = '\x22' then
      match _h : readChars? [] t with
      | none => none
      | some (cs, rest) => (.string (String.ofList cs.reverse) :: ·) <$> tokens? rest
    else do
      let j ← ofWord? (c :: t.takeWhile isWordChar)
      return .word j :: (← tokens? (t.dropWhile isWordChar))
termination_by t => t.length
decreasing_by
  · exact Nat.lt_succ_self _
  · exact Nat.lt_succ_self _
  · exact Nat.lt_succ_of_le (length_of_readChars? ‹_›)
  · exact Nat.lt_succ_of_le (List.dropWhile_sublist isWordChar).length_le

end QueryStats.Json
