import Sideload.Registry.Entry

/-!
What a user can ask for.
-/

namespace Sideload

/-- A command with its arguments. -/
inductive Command where
  | install (source : Path) (mode : Mode) (name? : Option String)
  | list (json : Bool)
  | info (name : String) (json : Bool)
  | update (name : String)
  | uninstall (name : String)
  deriving DecidableEq

end Sideload
