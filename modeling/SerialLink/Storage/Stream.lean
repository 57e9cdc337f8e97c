import SerialLink.Bytes

/-!
# Streams of bytes

A source is read into a place that holds bytes already: as many bytes are asked for as the place has.
When the source has fewer, it decides itself what the place holds afterwards, and reports that the
read failed.  A sink takes bytes.
-/

namespace SerialLink

/-- Something that bytes are read from. -/
class Source (σ : Type) where
  /-- Reads over the bytes of a place: whether all of them came, what the place holds afterwards, and
  the source behind them. -/
  read : Bytes → σ → Bool × Bytes × σ

/-- Something that bytes are written to. -/
class Sink (σ : Type) where
  /-- Writes bytes: whether the sink took them, and the sink behind them. -/
  write : Bytes → σ → Bool × σ

/-- The bytes of a place over whose front others were read. -/
def Bytes.overlay (front place : Bytes) : Bytes := front ++ place.drop front.length

end SerialLink
