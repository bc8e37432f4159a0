import LockedCat.World

/-!
# Sessions

A session with a volume is owned by whoever connected it, or borrowed from a caller. Only an owned
session is configured, and only an owned session is ended; one that is borrowed stays open.
-/

namespace LockedCat

inductive Session (V : Type) where
  | owned (volume : V)
  | borrowed (volume : V)

namespace Session

variable {σ V F : Type}

def isOwned : Session V → Bool
  | owned _ => true
  | borrowed _ => false

def volume : Session V → V
  | owned v => v
  | borrowed v => v

/-- The volume of a session that may be configured. -/
def configurable? : Session V → Option V
  | owned v => some v
  | borrowed _ => none

/-- Connects to the volume that a locator names. -/
def connect (p : Provider σ V F) (url : Locator) (w : World σ) :
    Except Error (Session V) × World σ :=
  let w := w.debug ("connecting to volume " ++ url.volume ++ " on " ++ url.host ++ ":"
    ++ toString url.port.toNat)
  match w.connect p url with
  | (.error c, w) => (.error ⟨.connect, url.display, c⟩, w)
  | (.ok v, w) => (.ok (.owned v), w)

/-- Ends a session that is owned. That this fails is only worth a warning. -/
def close (p : Provider σ V F) (s : Session V) (w : World σ) : World σ :=
  match s with
  | borrowed _ => w.debug "session is borrowed, leaving it open"
  | owned v =>
      match (w.debug "finalizing session").finish p v with
      | (.ok (), w) => w
      | (.error c, w) => w.report .warn ("failed to finalize session: " ++ c.message)

/-- Applies directives in order up to the first that the volume rejects. Those before it stay in
effect. -/
def applyDirectives (p : Provider σ V F) (v : V) : List Directive → World σ →
    Except Error Unit × World σ
  | [], w => (.ok (), w)
  | d :: rest, w =>
      let w := w.debug ("setting " ++ d.setting ++ " of translator " ++ d.xlator ++ " to '"
        ++ d.value ++ "'")
      match w.setOption p v d with
      | (.ok (), w) => applyDirectives p v rest w
      | (.error c, w) =>
          (.error ⟨.config, d.key,
            c.within ("failed to apply translator option with value '" ++ d.value ++ "'")⟩, w)

/-- Sends the session's own diagnostics up to a level to a file. -/
def setLogging (p : Provider σ V F) (v : V) (sink : String) (level : Level) (w : World σ) :
    Except Error Unit × World σ :=
  match w.setLogging p v sink level with
  | (.ok (), w) => (.ok (), w)
  | (.error c, w) => (.error ⟨.config, sink, c.within "failed to set logging level"⟩, w)

end Session

end LockedCat
