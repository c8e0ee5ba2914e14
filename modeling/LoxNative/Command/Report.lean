namespace LoxNative

/-- What a command leaves behind: its status and the texts of its two output streams. -/
structure Report where
  status : Nat := 0
  output : String := ""
  errors : String := ""
deriving DecidableEq, Inhabited

end LoxNative
