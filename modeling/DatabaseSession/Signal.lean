namespace DatabaseSession

structure Signal where
  isSet : Bool := false
  deriving DecidableEq, Repr, Inhabited

namespace Signal

def set (_ : Signal) : Signal := ⟨true⟩

end Signal
end DatabaseSession
