import Mathlib.Logic.Function.Basic

/-! # The configuration memory

The non-volatile memory is a map from names to byte strings.
-/

namespace CubieBle.Storage

abbrev Nvram := String → Option (List UInt8)

def Nvram.empty : Nvram := fun _ => none

/-- The bytes read, at most `maxLen` of them, or an error. -/
def nvramConfigGet (name : String) (maxLen : Nat) (nvram : Nvram) : Option (List UInt8) :=
  (nvram name).map (List.take maxLen)

def nvramConfigSet (name : String) (data : List UInt8) (nvram : Nvram) : Nvram :=
  Function.update nvram name (some data)

@[simp] theorem nvramConfigSet_self (name : String) (data : List UInt8) (nvram : Nvram) :
    nvramConfigSet name data nvram name = some data :=
  Function.update_self _ _ _

theorem nvramConfigSet_of_ne {name other : String} (hne : other ≠ name) (data : List UInt8)
    (nvram : Nvram) : nvramConfigSet name data nvram other = nvram other :=
  Function.update_of_ne hne _ _

/-- What was stored is read, as far as it fits. -/
theorem nvramConfigGet_nvramConfigSet (name : String) (maxLen : Nat) (data : List UInt8)
    (nvram : Nvram) :
    nvramConfigGet name maxLen (nvramConfigSet name data nvram) = some (data.take maxLen) := by
  rw [nvramConfigGet, nvramConfigSet_self, Option.map_some]

theorem nvramConfigGet_set_of_ne {name other : String} (hne : other ≠ name) (maxLen : Nat)
    (data : List UInt8) (nvram : Nvram) :
    nvramConfigGet other maxLen (nvramConfigSet name data nvram) =
      nvramConfigGet other maxLen nvram := by
  rw [nvramConfigGet, nvramConfigSet_of_ne hne, nvramConfigGet]

end CubieBle.Storage
