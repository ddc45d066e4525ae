import InstrumentResponse.Channel
import InstrumentResponse.Pattern

/-!
# Selecting channels

A selection accepts a channel by its four codes and by an instant that must fall into its epoch.
-/

namespace InstrumentResponse

/-- Patterns for the four codes, and an instant of the epoch. -/
structure Selection where
  stations : List Pattern
  channels : List Pattern
  networks : List Pattern
  locations : List Pattern
  instant : Option Instant
deriving DecidableEq, Repr

namespace Selection

/-- The selection of every channel. -/
def any : Selection := ⟨[.any], [.any], [.any], [.any], none⟩

/-- The selection by four pattern lists. -/
def ofLists (stations channels networks locations : String) (instant : Option Instant) :
    Selection :=
  ⟨Pattern.readList stations, Pattern.readList channels, Pattern.readList networks,
    Pattern.readList locations, instant⟩

def acceptsId (s : Selection) (c : ChannelId) : Bool :=
  Pattern.anyAccepts s.stations c.station && Pattern.anyAccepts s.channels c.channel &&
    Pattern.anyAccepts s.networks c.network && Pattern.anyAccepts s.locations c.location

/-- Does the instant lie in an epoch?  The start belongs to the epoch and the end does not; an epoch
without a bound is open on that side. -/
def acceptsEpoch (s : Selection) (start stop : Option Instant) : Bool :=
  s.instant.all fun t => start.all (!t.before ·) && stop.all (t.before ·)

def accepts {α : Type} (s : Selection) (c : Channel α) : Bool :=
  s.acceptsId c.id && s.acceptsEpoch c.start c.stop

end Selection

end InstrumentResponse
