import TapeDebugger.Settings.Store

/-!
# What is loaded

What a storage holds under a key is either a value that the key accepts, and
then it is in force, or nothing else than the default is.  So the settings that
are loaded are valid, whatever the storage holds.
-/

namespace TapeDebugger

namespace Settings

namespace Key

/-- What holds of the default and of every accepted value holds of what is loaded. -/
theorem load_satisfies {α : Type} (key : Key α) (holds : α → Prop)
    (default_holds : holds key.default)
    (accepted_holds : ∀ json value, key.accept? json = some value → holds value)
    (storage : Storage) : holds (key.load storage).value := by
  unfold load
  split
  · exact default_holds
  · split
    · exact default_holds
    · rename_i json _
      split
      · rename_i value accepted
        exact accepted_holds json value accepted
      · exact default_holds

theorem check_of_integer {name : String} {default value : Int} {check : Int → Bool} {json : Json}
    (accepted : (integer name default check).accept? json = some value) : check value = true := by
  cases json with
  | number number => exact (Option.filter_eq_some_iff.mp accepted).2
  | _ => cases accepted

theorem check_of_natural {name : String} {default value : Nat} {check : Nat → Bool} {json : Json}
    (accepted : (natural name default check).accept? json = some value) : check value = true := by
  cases json with
  | number number => exact (Option.filter_eq_some_iff.mp accepted).2
  | _ => cases accepted

end Key

/-- The bounds of the settings that their types do not give. -/
structure Valid (settings : Settings) : Prop where
  tapeSize : 0 < settings.tapeSize
  programSize : 0 < settings.limits.programSize
  stackSize : 0 ≤ settings.limits.stackSize

/-- Whatever a storage holds, valid settings are loaded from it. -/
theorem valid_load (storage : Storage) : (load storage).value.Valid := by
  constructor
  · exact Key.tapeSize.load_satisfies (fun size => 0 < size) (by decide)
      (fun json value accepted => of_decide_eq_true (Key.check_of_natural accepted)) storage
  · exact Key.programSize.load_satisfies (fun size => 0 < size) (by decide)
      (fun json value accepted => of_decide_eq_true (Key.check_of_integer accepted)) storage
  · exact Key.stackSize.load_satisfies (fun size => 0 ≤ size) (by decide)
      (fun json value accepted => of_decide_eq_true (Key.check_of_integer accepted)) storage

end Settings

end TapeDebugger
