import DatabaseSession.Binary64.Shortest

namespace DatabaseSession.Binary64

def padded (width n : Nat) : String :=
  let text := toString n
  zeros (width - text.length) ++ text

/-- The text with so many places after the point; a half goes to the even digit. -/
def fixed (x : Binary64) (places : Nat) : String :=
  let unit := Nat.pow 10 places
  let scaled := roundHalfEven (x.magnitude.1 * unit) x.magnitude.2
  x.signText ++ toString (scaled / unit)
    ++ (if places = 0 then "" else "." ++ padded places (scaled % unit))

end DatabaseSession.Binary64
