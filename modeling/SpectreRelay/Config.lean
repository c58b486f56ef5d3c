import SpectreRelay.Lib.JsonDecode

/-!
# The configuration

`config/config.go`: everything is read from environment variables, an unset or
unreadable number falls back to its default, and a start outside of development
needs a certificate and its key. An `int` has 64 bits.
-/

namespace SpectreRelay
set_option autoImplicit false
open Lib Lib.Json

structure Config where
  listenAddr : Bytes
  tlsCertFile : Bytes
  tlsKeyFile : Bytes
  maxClients : Int64
  messageTTLSeconds : Int64
  maxMessageSize : Int64
  rateLimitPerMin : Int64
  offlineQueuePath : Bytes
  prekeyStorePath : Bytes
  sealedCAPath : Bytes
  devMode : Bool
  relayID : Bytes
  federationAddr : Bytes
deriving DecidableEq

namespace Config

/-! ## Reading -/

/-- `strconv.Atoi`: digits after at most one sign, of a value in the range of an `int`. -/
def atoi (s : Bytes) : Option Int64 :=
  let digits := if s.head? = some 45 ∨ s.head? = some 43 then s.tail else s
  if digits = [] ∨ digits.all isDigit = false then none
  else int64Of (if s.head? = some 45 then -(natOf digits : Int) else natOf digits)

section Env

-- `os.Getenv`: an unset variable is empty
variable (env : Bytes → Bytes)

def getEnv (k : String) (default : Bytes) : Bytes := if env (ascii k) ≠ [] then env (ascii k) else default

def getEnvInt (k : String) (default : Int64) : Int64 :=
  if env (ascii k) = [] then default else (atoi (env (ascii k))).getD default

/-- The fields as `Load` sets them, before it checks them. -/
def read : Config where
  listenAddr := getEnv env "SPECTRE_LISTEN_ADDR" (ascii ":443")
  tlsCertFile := env (ascii "SPECTRE_TLS_CERT")
  tlsKeyFile := env (ascii "SPECTRE_TLS_KEY")
  maxClients := getEnvInt env "SPECTRE_MAX_CLIENTS" 10000
  messageTTLSeconds := getEnvInt env "SPECTRE_MESSAGE_TTL" 604800
  maxMessageSize := getEnvInt env "SPECTRE_MAX_MESSAGE_SIZE" 65536
  rateLimitPerMin := getEnvInt env "SPECTRE_RATE_LIMIT_PER_MIN" 60
  offlineQueuePath := getEnv env "SPECTRE_QUEUE_PATH" (ascii "/data/offline_queue.enc")
  prekeyStorePath := getEnv env "SPECTRE_PREKEY_PATH" (ascii "/data/prekeys.enc")
  sealedCAPath := getEnv env "SPECTRE_SEALED_CA_PATH" (ascii "/data/sealed_ca.key")
  devMode := env (ascii "SPECTRE_DEV") = ascii "true"
  relayID := getEnv env "RELAY_ID" []
  federationAddr := getEnv env "FEDERATION_ADDR" []

/-- Reads the environment and applies the defaults; fails closed without a certificate outside of development. -/
def load : Except String Config :=
  let cfg := read env
  if cfg.devMode = false ∧ (cfg.tlsCertFile = [] ∨ cfg.tlsKeyFile = []) then
    .error "SPECTRE_TLS_CERT and SPECTRE_TLS_KEY are required in production"
  else if cfg.maxClients ≤ 0 ∨ cfg.maxMessageSize ≤ 0 ∨ cfg.rateLimitPerMin ≤ 0 ∨ cfg.messageTTLSeconds ≤ 0 then
    .error "invalid config: numeric fields must be positive"
  else .ok cfg

end Env

/-! ## What is accepted -/

/-- The checks of `Load`. -/
structure Accepted (cfg : Config) : Prop where
  secure : cfg.devMode = true ∨ cfg.tlsCertFile ≠ [] ∧ cfg.tlsKeyFile ≠ []
  maxClients : 0 < cfg.maxClients
  maxMessageSize : 0 < cfg.maxMessageSize
  rateLimitPerMin : 0 < cfg.rateLimitPerMin
  messageTTLSeconds : 0 < cfg.messageTTLSeconds

/-- **What `Load` accepts.** -/
theorem load_eq_ok {env : Bytes → Bytes} {cfg : Config} : load env = .ok cfg ↔ cfg = read env ∧ cfg.Accepted := by
  have positive : ∀ n : Int64, ¬ n ≤ 0 ↔ 0 < n := fun n => Int64.not_le
  unfold load
  dsimp only
  constructor
  · intro loaded
    split at loaded
    · cases loaded
    · rename_i secure
      split at loaded
      · cases loaded
      · rename_i numbers
        cases loaded
        simp only [not_or, positive] at numbers
        refine ⟨rfl, ?_, numbers.1, numbers.2.1, numbers.2.2.1, numbers.2.2.2⟩
        cases dev : (read env).devMode with
        | true => exact .inl rfl
        | false => exact .inr (not_or.1 fun missing => secure ⟨dev, missing⟩)
  · rintro ⟨rfl, accepted⟩
    rw [if_neg, if_neg]
    · simp only [not_or, positive]
      exact ⟨accepted.maxClients, accepted.maxMessageSize, accepted.rateLimitPerMin, accepted.messageTTLSeconds⟩
    · rintro ⟨production, missing⟩
      rcases accepted.secure with dev | ⟨cert, key⟩
      · rw [dev] at production
        cases production
      · exact missing.elim cert key

/-- An environment for development that sets the time to live. -/
def devEnv (ttl k : Bytes) : Bytes :=
  if k = ascii "SPECTRE_DEV" then ascii "true" else if k = ascii "SPECTRE_MESSAGE_TTL" then ttl else []

end Config

end SpectreRelay
