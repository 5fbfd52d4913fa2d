import TurboDb.Mysql.Response

/-!
The greeting and the negotiation of a connection.

The client answers the greeting with an SSLRequest in the clear, and repeats its
header in the login under TLS. The gate has one phase for each message it waits
for; whatever it does not expect makes it fail for good.

Version and plugin of a greeting are arrays that end with the first zero byte.
-/

namespace TurboDb.Mysql

open ByteOrder Effect

def clientLongPassword : UInt32 := 0x00000001

def clientLongFlag : UInt32 := 0x00000004

def clientConnectWithDb : UInt32 := 0x00000008

def clientProtocol41 : UInt32 := 0x00000200

def clientSsl : UInt32 := 0x00000800

def clientTransactions : UInt32 := 0x00002000

def clientSecureConnection : UInt32 := 0x00008000

def clientPluginAuth : UInt32 := 0x00080000

def clientDeprecateEof : UInt32 := 0x01000000

def authPluginNameCapacity : Nat := 64

def serverVersionCapacity : Nat := 128

def authPlugin : Bytes := Decimal.ascii "caching_sha2_password"

def sslBytes : Nat := 32

def nonceBytes : Nat := 20

def authBytes : Nat := 32

def usernameBytes : Nat := 128

def databaseBytes : Nat := 128

def utf8mb4GeneralCi : UInt8 := 45

def binaryCharset : UInt8 := 63

def utf8mb4AiCi : UInt8 := 255

def handshakeProtocol : UInt8 := 10

def handshakeNonceFirst : Nat := 8

def handshakeReserved : Nat := 10

def handshakeSslFiller : Nat := 23

def handshakeSslOffset : Nat := 9

structure Greeting where
  protocolVersion : UInt8
  serverVersion : Bytes
  connectionId : UInt32
  capabilities : UInt32
  characterSet : UInt8
  statusFlags : UInt16
  authPluginData : Bytes
  authPluginDataLength : Nat
  authPlugin : Bytes
  deriving DecidableEq

structure LoginHeader where
  capabilities : UInt32
  maxPacketSize : UInt32
  characterSet : UInt8
  deriving DecidableEq

/-- A login; `database` is empty when the client names none. -/
structure Login where
  header : LoginHeader
  username : Bytes
  database : Bytes
  authResponse : Bytes
  plugin : Bytes
  deriving DecidableEq

/-- The phases of the gate; `none` is a gate that is not initialized. -/
inductive NegotiationPhase
  | none | waitSsl | waitTls | waitLogin | waitCredentials | failed
  deriving DecidableEq

structure Negotiation where
  header : LoginHeader
  advertised : UInt32
  phase : NegotiationPhase
  deriving DecidableEq

def handshakeRequired : UInt32 :=
  clientProtocol41 ||| clientSsl ||| clientSecureConnection ||| clientPluginAuth

def handshakeCharacterSet (characterSet : UInt8) : Bool :=
  characterSet = binaryCharset || characterSet = utf8mb4GeneralCi || characterSet = utf8mb4AiCi

def serverCapabilities (database : Bool) : UInt32 :=
  handshakeRequired ||| clientLongPassword ||| clientLongFlag ||| clientTransactions |||
    clientDeprecateEof ||| (if database then clientConnectWithDb else 0)

def handshakeFlags (advertised client : UInt32) : Except WireStatus Unit := do
  let required := handshakeRequired
  reject (advertised &&& required ≠ required) .invalid
  reject (advertised &&& ~~~serverCapabilities true ≠ 0) .unsupported
  reject (client &&& required ≠ required) .unsupported
  reject (client &&& ~~~advertised ≠ 0) .unsupported

/-- The text of an array that ends with a zero byte. -/
def handshakeString (value : Bytes) : Except WireStatus Bytes := do
  reject (0 ∉ value) .limit
  pure (value.takeWhile (· ≠ 0))

def greetingEncode (g : Greeting) (out : Output) : Except WireStatus Output := do
  reject (g.protocolVersion ≠ handshakeProtocol ∨ g.connectionId = 0 ∨
    g.authPluginDataLength ≠ nonceBytes ∨ g.characterSet ≠ binaryCharset ∨
    g.statusFlags ≠ serverAutocommit) .invalid
  handshakeFlags g.capabilities g.capabilities
  let version ← handshakeString g.serverVersion
  let plugin ← handshakeString g.authPlugin
  reject (version = []) .invalid
  reject (plugin ≠ authPlugin) .unsupported
  let encoded : Bytes := List.flatten
    [[handshakeProtocol], version, [0], Wire.write 4 g.connectionId.toUInt64,
      g.authPluginData.take handshakeNonceFirst, [0],
      Wire.write 2 g.capabilities.toUInt16.toUInt64, [g.characterSet],
      Wire.write 2 g.statusFlags.toUInt64, Wire.write 2 (g.capabilities >>> 16).toUInt64,
      [UInt8.ofNat (nonceBytes + 1)], List.replicate handshakeReserved 0,
      (g.authPluginData.drop handshakeNonceFirst).take (nonceBytes - handshakeNonceFirst), [0],
      plugin, [0]]
  reject (encoded.length > out.capacity) .limit
  pure { out with data := out.data.map fun _ => encoded, size := encoded.length }

def handshakeHeader (data : Bytes) (advertised : UInt32) : Except WireStatus LoginHeader := do
  reject (data.length < sslBytes) .invalid
  let (capabilities, rest) ← readU32Le data
  let (maxPacketSize, rest) ← readU32Le rest
  handshakeFlags advertised capabilities
  let characterSet := rest.headD 0
  reject (maxPacketSize = 0) .invalid
  reject (handshakeCharacterSet characterSet = false) .unsupported
  reject ((data.drop handshakeSslOffset).take handshakeSslFiller ≠
    List.replicate handshakeSslFiller 0) .invalid
  pure ⟨capabilities, maxPacketSize, characterSet⟩

def sslDecode (data : Bytes) (advertised : UInt32) : Except WireStatus LoginHeader := do
  reject (data.length ≠ sslBytes) .invalid
  handshakeHeader data advertised

def handshakeCstring (input : Bytes) (limit : Nat) : Except WireStatus (Bytes × Bytes) := do
  reject (0 ∉ input) .invalid
  let text := input.takeWhile (· ≠ 0)
  reject (text.length > limit) .limit
  pure (text, input.drop (text.length + 1))

def loginDatabase (capabilities : UInt32) (input : Bytes) : Except WireStatus (Bytes × Bytes) :=
  if capabilities &&& clientConnectWithDb ≠ 0 then do
    let (database, rest) ← handshakeCstring input databaseBytes
    reject (database = []) .invalid
    pure (database, rest)
  else pure ([], input)

def loginDecode (data : Bytes) (advertised : UInt32) : Except WireStatus Login := do
  let header ← handshakeHeader data advertised
  let (username, rest) ← handshakeCstring (data.drop sslBytes) usernameBytes
  reject (username = [] ∨ rest = []) .invalid
  let bytes := (rest.headD 0).toNat
  let rest := rest.drop 1
  reject (bytes ≠ 0 ∧ bytes ≠ authBytes) .invalid
  reject (bytes > rest.length) .invalid
  let authResponse := rest.take bytes
  let (database, rest) ← loginDatabase header.capabilities (rest.drop bytes)
  let (plugin, rest) ← handshakeCstring rest (authPluginNameCapacity - 1)
  reject (plugin ≠ authPlugin) .unsupported
  reject (rest ≠ []) .invalid
  pure ⟨header, username, database, authResponse, plugin⟩

def negotiationInit (advertised : UInt32) : Except WireStatus Negotiation := do
  handshakeFlags advertised advertised
  pure ⟨⟨0, 0, 0⟩, advertised, .waitSsl⟩

/-- The login that a gate waits for repeats the header of the request. -/
def negotiationLogin (n : Negotiation) (data : Bytes) (sequence : UInt8) :
    Except WireStatus Login := do
  reject (sequence ≠ 2) .sequence
  let login ← loginDecode data n.advertised
  reject (login.header ≠ n.header) .invalid
  pure login

def negotiationSsl (n : Negotiation) (data : Bytes) (sequence : UInt8) :
    Except WireStatus LoginHeader := do
  reject (sequence ≠ 1) .sequence
  sslDecode data n.advertised

def negotiationAccept (data : Bytes) (sequence : UInt8) (tls : Bool) :
    EStateM WireStatus Negotiation (Option Login) := fun n =>
  if n.phase = .none ∨ n.phase = .failed then .error .invalid n
  else if n.phase = .waitSsl ∧ tls = false then
    match negotiationSsl n data sequence with
    | .ok header => .ok none { n with header, phase := .waitTls }
    | .error status => .error status { n with phase := .failed }
  else if n.phase = .waitLogin ∧ tls = true then
    match negotiationLogin n data sequence with
    | .ok login => .ok (some login) { n with phase := .waitCredentials }
    | .error status => .error status { n with phase := .failed }
  else .error .invalid { n with phase := .failed }

def negotiationTlsReady : EStateM WireStatus Negotiation Unit := fun n =>
  if n.phase = .none then .error .invalid n
  else if n.phase ≠ .waitTls then .error .invalid { n with phase := .failed }
  else .ok () { n with phase := .waitLogin }

end TurboDb.Mysql
