import PullCache.Text.Utf8
/-!
# Text.HeaderValue

What may stand in a header of a message.
-/

namespace PullCache.Text

/-- Whether bytes can stand in a header: no control characters but the tab. -/
def isHeaderValue (bs : Bytes) : Bool :=
  bs.all fun b => (0x20 ≤ b.toNat && b ≠ 0x7F) || b = 0x09

/-- Whether bytes are plain ASCII that can be shown. -/
def isVisible (bs : Bytes) : Bool :=
  bs.all fun b => (0x20 ≤ b.toNat && b.toNat < 0x7F) || b = 0x09

end PullCache.Text
