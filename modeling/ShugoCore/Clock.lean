import Mathlib.Data.Rat.Floor

/-!
# Clock readings

The code reads two clocks.  `time.monotonic()` and `datetime.now()` are exact
readings here, and `_utc_now_iso` writes the second one down with a resolution
of one second.  Its texts have a fixed width and one zone, so they compare as
the whole seconds they stand for, and the whole seconds are what the model keeps.
-/

namespace ShugoCore

/-- A clock reading or a duration, in seconds. -/
abbrev Seconds := ℚ

/-- A time stamp as `_utc_now_iso` writes it. -/
abbrev IsoSeconds := Int

/-- `_utc_now_iso` with `timespec="seconds"`: the fraction is cut off. -/
def utcNowIso (now : Seconds) : IsoSeconds := ⌊now⌋

end ShugoCore
