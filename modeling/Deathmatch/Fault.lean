import Deathmatch.Packet

/-!
# What can go wrong

Every failure of the server is one cause, and each cause has one wording.
-/

namespace Deathmatch

/-- The queues that a failed delivery can name. -/
inductive Channel where
  | gameCommand
  | udpOutbound
  | tcpOutbound
  deriving DecidableEq

def Channel.name : Channel → String
  | gameCommand => "game command"
  | udpOutbound => "udp outbound"
  | tcpOutbound => "tcp outbound"

/-- Why settings are refused. -/
inductive SettingsFault where
  | invalidFile
  /-- A number is too large for the file format. -/
  | unwritable
  | emptyRotation
  | zeroTickInterval
  | zeroChannelSize
  /-- The account service's address is no URL. -/
  | invalidApiServer (url : String)
  /-- The account service's URL has no path to extend. -/
  | pathlessApiServer (url : String)
  deriving DecidableEq

/-- Why a stream or a file could not be read or written. -/
inductive StreamFault where
  | unexpectedEnd
  | invalidData
  | notFound
  /-- The machine offers no port to listen on. -/
  | unavailable
  deriving DecidableEq

inductive Fault where
  | packet (cause : PacketFault)
  /-- No connected player matches the packet's origin. -/
  | unknownPeer
  /-- An outbound packet has no route to a peer. -/
  | unresolvedPeer (id : UInt8)
  /-- The acknowledged snapshot is no longer in the history. -/
  | staleBaseline (snapshot : UInt32)
  | serverFull
  | handshakeRejected (reason : String)
  /-- The receiving side of a queue is gone. -/
  | channelClosed (channel : Channel)
  | settings (cause : SettingsFault)
  | stream (cause : StreamFault)
  /-- The master server answered, but not with an acknowledgement. -/
  | masterServer (body : String)
  /-- A web request brought no usable answer. -/
  | http
  deriving DecidableEq

/-! ## Wording -/

/-- A byte as `0x` and two hexadecimal digits. -/
def hexByte (b : UInt8) : String :=
  String.ofList ['0', 'x', Nat.digitChar (b.toNat / 16), Nat.digitChar (b.toNat % 16)]

def PacketFault.message : PacketFault → String
  | malformed length least =>
    s!"malformed datagram: {length} bytes is shorter than the {least}-byte header"
  | invalidChecksum expected computed =>
    "invalid checksum: expected " ++ hexByte expected ++ ", computed " ++ hexByte computed
  | fieldOutOfRange offset length payload =>
    s!"field out of range: offset {offset} + length {length} exceeds payload of {payload} bytes"
  | missingFragment id index total =>
    "packet " ++ hexByte id ++ s!" is missing fragment {index} of {total}"
  | invalidUtf8 offset => s!"string field at offset {offset} is not valid UTF-8"
  | tooManyFragments payload => s!"payload of {payload} bytes needs more than 255 fragments"

def SettingsFault.message : SettingsFault → String
  | invalidFile => "invalid config file"
  | unwritable => "cannot serialize config"
  | emptyRotation => "map rotation is empty"
  | zeroTickInterval => "tick_interval_ms must be positive"
  | zeroChannelSize => "channel_size must be positive"
  | invalidApiServer url => "invalid api_server " ++ url
  | pathlessApiServer url => "api_server " ++ url ++ " cannot take a path"

def StreamFault.message : StreamFault → String
  | unexpectedEnd => "unexpected end of file"
  | invalidData => "invalid data"
  | notFound => "not found"
  | unavailable => "address not available"

/-- The wording of a refusal of the settings, whatever is wrong with them. -/
def settingsMessage (problem : String) : String :=
  "configuration error: " ++ problem

def Fault.message : Fault → String
  | packet cause => cause.message
  | unknownPeer => "no player matches the packet origin"
  | unresolvedPeer id => "no route to peer for packet " ++ hexByte id
  | staleBaseline snapshot => s!"snapshot {snapshot} is no longer in history"
  | serverFull => "server is full"
  | handshakeRejected reason => "handshake rejected: " ++ reason
  | channelClosed channel => channel.name ++ " channel closed"
  | settings cause => settingsMessage cause.message
  | stream cause => "I/O error: " ++ cause.message
  | masterServer body => "unexpected master server response: " ++ body
  | http => "HTTP error"

end Deathmatch
