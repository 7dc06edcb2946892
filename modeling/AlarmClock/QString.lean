import AlarmClock.DateTime
import AlarmClock.Lib.Text

/-!
# The string functions of the application

`QString` under its own words, over the text library.
-/

namespace AlarmClock

/-- `QChar::isSpace` -/
def isSpace (c : Char) : Bool :=
  let n := c.toNat
  n == 0x20 || (0x09 ≤ n && n ≤ 0x0d) || n == 0x85 || n == 0xa0 || n == 0x1680 ||
    (0x2000 ≤ n && n ≤ 0x200a) || n == 0x2028 || n == 0x2029 || n == 0x202f || n == 0x205f ||
    n == 0x3000

namespace QString

def trimmed (s : QString) : QString := Text.trim isSpace s

def startsWith (s t : QString) : Bool := t.isPrefixOf s

def contains (s t : QString) : Bool := decide (t <:+: s)

def mid (s : QString) (position : Nat) : QString := s.drop position

/-- `split` with `Qt::SkipEmptyParts` -/
def splitSkipEmptyParts (s sep : QString) : List QString :=
  (Text.split sep s).filter (· ≠ [])

theorem startsWith_iff {s t : QString} : s.startsWith t = true ↔ ∃ rest, s = t ++ rest := by
  unfold startsWith
  rw [List.isPrefixOf_iff_prefix]
  exact ⟨fun ⟨rest, h⟩ => ⟨rest, h.symm⟩, fun ⟨rest, h⟩ => ⟨rest, h.symm⟩⟩

end QString

end AlarmClock
