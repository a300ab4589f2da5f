/-!
# Devices and firmware releases

Which browser engine each e-reader or firmware release ships. This is reference data for people
who choose which devices to support; the detection rules do not consult it.
-/

namespace InkLint

/-- A device or firmware release and its browser engine. -/
structure Device where
  name : String
  engine : String
  notes : String
deriving DecidableEq, Repr

namespace Device

/-- Firmware releases for the colour reader, oldest first. -/
def colorFirmware : List Device :=
  [⟨"ColorSoft 1.0", "538.1", "Early e-ink color WebKit variant"⟩,
   ⟨"ColorSoft 1.2", "538.3", "Improved CSS handling and partial Grid"⟩,
   ⟨"ColorSoft 2.0", "540.0", "Most capable; broader ES6 support"⟩]

/-- Monochrome readers, oldest first. -/
def models : List Device :=
  [⟨"Kindle 4/5 (E-Ink)", "534.x",
    "Ancient WebKit; barely supports modern JS; no flexbox."⟩,
   ⟨"Kindle Paperwhite 1", "534.x",
    "Same era as Kindle 5; JS support extremely limited."⟩,
   ⟨"Kindle Paperwhite 2", "537.x",
    "Slightly newer; still pre-flexbox and missing many ES5 features."⟩,
   ⟨"Kindle Paperwhite 3", "537.x",
    "Marginal improvements; still no CSS variables or flexbox."⟩,
   ⟨"Kindle Paperwhite 4", "538.x",
    "Better CSS parsing; some ES6 works but inconsistently."⟩,
   ⟨"Kindle Oasis (all gens)", "538–539 range",
    "Fastest pre-color Kindles; partial flexbox but buggy; no fetch()."⟩,
   ⟨"Kindle Scribe", "539–540 range",
    "Closest to ColorSoft 2.0; best JS support in any monochrome Kindle."⟩]

/-- Every entry, firmware releases first. -/
def all : List Device :=
  colorFirmware ++ models

/-- The entry with exactly this name. -/
def find? (name : String) : Option Device :=
  all.find? (·.name == name)

/-- No two entries share a name, so the order of the table does not matter to `find?`. -/
theorem names_nodup : (all.map (·.name)).Nodup := by decide

end Device

end InkLint
