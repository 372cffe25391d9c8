namespace Compositor.Text

/-- The ranges of code points with the Unicode property White_Space. -/
def blankRanges : List (Nat × Nat) :=
  [(0x09, 0x0D), (0x20, 0x20), (0x85, 0x85), (0xA0, 0xA0), (0x1680, 0x1680),
    (0x2000, 0x200A), (0x2028, 0x2029), (0x202F, 0x202F), (0x205F, 0x205F),
    (0x3000, 0x3000)]

def isBlank (c : Char) : Bool :=
  blankRanges.any fun range => range.1 ≤ c.toNat && c.toNat ≤ range.2

def trimLeft (text : List Char) : List Char :=
  text.dropWhile isBlank

def trimRight (text : List Char) : List Char :=
  (text.reverse.dropWhile isBlank).reverse

def trimmed (text : List Char) : List Char :=
  trimRight (trimLeft text)

def trim (text : String) : String :=
  String.ofList (trimmed text.toList)

@[simp] theorem trimLeft_nil : trimLeft [] = [] := rfl

theorem trimLeft_cons (c : Char) (text : List Char) :
    trimLeft (c :: text) = if isBlank c then trimLeft text else c :: text := by
  by_cases blank : isBlank c <;> simp [trimLeft, blank]

end Compositor.Text
