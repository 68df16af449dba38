namespace DatabaseSession.Text

/-- Inside a single-quoted literal a quote is written twice. -/
def doubleQuotes : List Char → List Char
  | [] => []
  | c :: rest => if c = '\'' then '\'' :: '\'' :: doubleQuotes rest else c :: doubleQuotes rest

def literal (s : String) : String := "'" ++ String.ofList (doubleQuotes s.toList) ++ "'"

/-- Reads a literal from behind its opening quote: its value, and what follows the closing
quote. -/
def scanLiteral : List Char → Option (List Char × List Char)
  | [] => none
  | '\'' :: '\'' :: rest => (scanLiteral rest).map fun r => ('\'' :: r.1, r.2)
  | '\'' :: rest => some ([], rest)
  | c :: rest => (scanLiteral rest).map fun r => (c :: r.1, r.2)

/-- A written literal reads back, and nothing in it reaches beyond its closing quote. -/
theorem scanLiteral_doubleQuotes (s rest : List Char) (h : rest.head? ≠ some '\'') :
    scanLiteral (doubleQuotes s ++ '\'' :: rest) = some (s, rest) := by
  induction s with
  | nil =>
    cases rest with
    | nil => rfl
    | cons c tail =>
      have hc : c ≠ '\'' := fun e => h (by simp [e])
      simp [doubleQuotes, scanLiteral, hc]
  | cons c s ih =>
    by_cases hc : c = '\''
    · simp [doubleQuotes, scanLiteral, hc, ih]
    · simp [doubleQuotes, scanLiteral, hc, ih]

end DatabaseSession.Text
