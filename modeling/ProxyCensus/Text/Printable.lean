import ProxyCensus.Text.LetterCase
import ProxyCensus.Text.PrintableTable

/-!
# Printable characters
-/

namespace ProxyCensus.Text

def isPrintable (c : Char) : Bool :=
  if c.toNat < 128 then 32 ≤ c.toNat && c.toNat < 127 else inRanges printableRanges c.toNat

end ProxyCensus.Text
