import DocumentQa.Python.Datetime

/-!
# What a call finds outside the database

The settings, the clock and the random tokens. They are inputs of every call, so a theorem
about calls holds of every clock, every configuration and every sequence of tokens.
-/

namespace Workspace

open Python

/-- The configured secrets; an empty text is none. -/
structure Settings where
  localWorkspaceToken : String
  groqApiKey : String
  groqApiKeyFallBack : String
  qdrantCloudApiKey : String
deriving DecidableEq

/-- `_configured_secret_values` of the record repository. -/
def Settings.forbidden (settings : Settings) : List String :=
  [settings.localWorkspaceToken, settings.groqApiKey, settings.groqApiKeyFallBack, settings.qdrantCloudApiKey].filter
    (· ≠ "")

/-- `_configured_secret_values` of the transfer: secrets of at least eight characters. The
fourth name it looks up is no setting. -/
def Settings.portableSecrets (settings : Settings) : List String :=
  [settings.localWorkspaceToken, settings.groqApiKey, settings.groqApiKeyFallBack].filter fun raw => 8 ≤ raw.length

/-- A reading of the system clock: an instant `datetime` can hold. -/
structure Instant where
  micros : Nat
  bound : micros < maxMicros

/-- What one call finds: the settings, the clock as `_now_ms` or `_utc_now` and as the
repository's clock read it, the random tokens it draws in turn and the characters Unicode
calls printable. -/
structure Context where
  settings : Settings
  now : Instant
  clock : Instant
  token : Nat → String
  isPrintable : Char → Bool

namespace Context

/-- `_now_ms`. -/
def nowMs (ctx : Context) : Nat :=
  (timestampMs ctx.now.micros).toNat

/-- `_utc_now`. -/
def nowText (ctx : Context) : String :=
  isoText true ctx.now.micros

/-- `utc_timestamp`. -/
def clockText (ctx : Context) : String :=
  isoText true ctx.clock.micros

/-- `generate_id`, for the `k`-th token of the call. -/
def generateId (ctx : Context) (pre : String) (k : Nat) : String :=
  pre ++ "-" ++ ctx.token k

end Context

end Workspace
