/-!
# Blank characters

Two classes of white space: the twenty-five code points with the Unicode
property `White_Space`, and the five ASCII characters that separate the
fields of record data. Trimming and splitting are stated over them.
-/

namespace ZoneStore.Text

/-- The code points with the Unicode property `White_Space`, as closed ranges. -/
def blankRanges : List (Nat × Nat) :=
  [(0x9, 0xD), (0x20, 0x20), (0x85, 0x85), (0xA0, 0xA0), (0x1680, 0x1680), (0x2000, 0x200A),
    (0x2028, 0x2029), (0x202F, 0x202F), (0x205F, 0x205F), (0x3000, 0x3000)]

def isBlank (c : Char) : Bool :=
  blankRanges.any fun (low, high) => low ≤ c.toNat && c.toNat ≤ high

/-- Space, tab, newline, form feed and carriage return; unlike `isBlank`, not the vertical tab. -/
def isAsciiBlank (c : Char) : Bool :=
  c == ' ' || c == '\t' || c == '\n' || c == '\x0c' || c == '\r'

theorem isBlank_of_isAsciiBlank {c : Char} (h : isAsciiBlank c = true) : isBlank c = true := by
  simp only [isAsciiBlank, Bool.or_eq_true, beq_iff_eq] at h
  rcases h with (((h | h) | h) | h) | h <;> subst h <;> decide

def trimStart (text : List Char) : List Char :=
  text.dropWhile isBlank

def trimEnd (text : List Char) : List Char :=
  (text.reverse.dropWhile isBlank).reverse

def trim (text : List Char) : List Char :=
  trimEnd (trimStart text)

/-- The maximal runs of characters other than ASCII white space, in order. -/
def fields (text : List Char) : List (List Char) :=
  go [] [] text
where
  /-- The pending field and the finished fields are held in reverse. -/
  go (field : List Char) (done : List (List Char)) : List Char → List (List Char)
    | [] => (close field done).reverse
    | c :: rest =>
      if isAsciiBlank c then go [] (close field done) rest else go (c :: field) done rest
  close (field : List Char) (done : List (List Char)) : List (List Char) :=
    if field.isEmpty then done else field.reverse :: done

end ZoneStore.Text
