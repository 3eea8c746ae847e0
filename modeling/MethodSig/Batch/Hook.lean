import MethodSig.Method.Basic

/-!
# Hooks

A hook sees the whole bound batch before it is checked and may add, remove, change or reorder its
methods.
-/

namespace MethodSig

abbrev Hook := List Method → List Method

/-- Hooks one after the other, each on the result of the one before it. -/
def Hook.chain (hooks : List Hook) : Hook :=
  fun methods => hooks.foldl (fun batch hook => hook batch) methods

end MethodSig
