import GoSharding.Mysql.Encoding

/-!
# Reading the client's handshake response

`readHandshakeResponse` parses the HandshakeResponse41 packet with the checked
readers of the `mysql` package, but its helpers `readAuthData` and
`readPluginName` index and slice the packet directly. A packet that ends early
makes them panic, and `data[pos:pos+n]` can reach past the packet's length into
the recycled read buffer. `readHandshakeResponse` also drops the `ok` flag of
`readAuthData`. On a well-formed packet every field comes back
(`readHandshakeResponse_handshakeResponse41`).
-/

namespace GoSharding

/-! ## Capability flags and the parsed response -/

/-- Modelled from the spec: `CLIENT_CONNECT_WITH_DB`. -/
def ClientConnectWithDB : UInt32 := 0x00000008

/-- Modelled from the spec: `CLIENT_PROTOCOL_41`. -/
def ClientProtocol41 : UInt32 := 0x00000200

/-- Modelled from the spec: `CLIENT_SECURE_CONNECTION`. -/
def ClientSecureConnection : UInt32 := 0x00008000

/-- Modelled from the spec: `CLIENT_PLUGIN_AUTH`. -/
def ClientPluginAuth : UInt32 := 0x00080000

/-- Modelled from the spec: `CLIENT_PLUGIN_AUTH_LENENC_CLIENT_DATA`. -/
def ClientPluginAuthLenencClientData : UInt32 := 0x00200000

/-- Modelled from the spec: `mysql.AUTH_NATIVE_PASSWORD`. -/
def AUTH_NATIVE_PASSWORD : Bytes := ascii "mysql_native_password"

/-- Modelled from the spec: the fields of `HandshakeResponseInfo` the server fills in. -/
structure HandshakeResponseInfo where
  Salt : Bytes := []
  CollationID : UInt8 := 0
  User : Bytes := []
  ClientPluginAuth : Bool := false
  AuthResponse : Bytes := []
  Database : Bytes := []
  AuthPlugin : Bytes := []
deriving DecidableEq, Repr

theorem UInt32.zero_lt_iff (x : UInt32) : 0 < x ↔ x ≠ 0 := by
  rw [UInt32.lt_def, BitVec.lt_def]
  constructor
  · intro h e; subst e; simp at h
  · intro h
    have : x.toBitVec.toNat ≠ 0 := fun e =>
      h (UInt32.eq_of_toBitVec_eq (BitVec.eq_of_toNat_eq (by simpa using e)))
    simpa [Nat.pos_iff_ne_zero] using this

/-! ## The parser -/

/-- `readAuthData`: the auth response, the position after it, and `ok`. -/
def readAuthData (data : Slice) (pos : Nat) (capability : UInt32) : Option (Bytes × Nat × Bool) :=
  if 0 < capability &&& ClientPluginAuthLenencClientData then
    match ReadLenEncStringAsBytes data.bytes pos with
    | none => some ([], 0, false)
    | some (none, _) => some ([], 0, false)
    | some (some authData, newPos) => some (authData, newPos, true)
  else if capability &&& ClientSecureConnection ≠ 0 then do
    let authLen ← data.get pos
    let auth ← data.sub (pos + 1) (pos + 1 + authLen.toNat)
    pure (auth, pos + 1 + authLen.toNat, true)
  else do
    let authLen := IndexByte (← data.drop pos) 0
    let auth ← data.sub pos (pos + authLen)
    pure (auth, (pos + (authLen + 1)).toNat, true)

/-- `readPluginName`: the plugin name and the position after it. -/
def readPluginName (data : Slice) (pos : Nat) (capability : UInt32) : Option (Bytes × Nat) :=
  if capability &&& ClientPluginAuth ≠ 0 then do
    let buf ← data.drop pos
    let str ← data.sub pos (pos + IndexByte buf 0)
    pure (str, pos + str.length)
  else some (AUTH_NATIVE_PASSWORD, pos)

/-- `ClientConn.readHandshakeResponse`, given the server's salt and the result of
reading the packet. -/
def readHandshakeResponse (salt : Bytes) (packet : Except String Slice) :
    Option (Except String HandshakeResponseInfo) := do
  let info : HandshakeResponseInfo := { Salt := salt }
  let data ← match packet with
    | .error err => return .error err
    | .ok data => pure data
  let some (capability, pos) := ReadUint32 data.bytes 0
    | return .error "readHandshakeResponse: can't read client flags"
  if capability &&& ClientProtocol41 = 0 then
    return .error "readHandshakeResponse: only support protocol 4.1"
  let some (_, pos) := ReadUint32 data.bytes pos
    | return .error "readHandshakeResponse: can't read maxPacketSize"
  let some (collationID, pos) := ReadByte data.bytes pos
    | return .error "readHandshakeResponse: can't read characterSet"
  let info := { info with CollationID := collationID }
  let pos := pos + 23
  let some (user, pos) := ReadNullString data.bytes pos
    | return .error "readHandshakeResponse: can't read username"
  let info := { info with User := user, ClientPluginAuth := decide (0 < capability &&& ClientPluginAuth) }
  let (authResponse, pos, _) ← readAuthData data pos capability
  let info := { info with AuthResponse := authResponse }
  let (info, pos) ← if 0 < capability &&& ClientConnectWithDB then
      match ReadNullString data.bytes pos with
      | none => return .error "readHandshakeResponse: can't read db"
      | some (db, pos) => pure ({ info with Database := db }, pos)
    else pure (info, pos)
  let (authPlugin, _) ← readPluginName data pos capability
  return .ok { info with AuthPlugin := authPlugin }

/-! ## Well-formed packets -/

/-- The auth response in the layout the capability flags select: length-encoded,
one length byte, or NUL-terminated. -/
def authResponseField (cap : UInt32) (auth : Bytes) : Bytes :=
  if cap &&& ClientPluginAuthLenencClientData ≠ 0 then lenEncString auth
  else if cap &&& ClientSecureConnection ≠ 0 then auth.length.toUInt8 :: auth
  else auth ++ [0]

/-- An auth response its layout can carry. A Go slice's length is below `2 ^ 63`,
so the length-encoded layout carries any. -/
def AuthFits (cap : UInt32) (auth : Bytes) : Prop :=
  if cap &&& ClientPluginAuthLenencClientData ≠ 0 then auth.length < 2 ^ 64
  else if cap &&& ClientSecureConnection ≠ 0 then auth.length < 256
  else 0 ∉ auth

/-- The HandshakeResponse41 packet of the spec (§4.3): capability flags, max packet
size, collation, 23 reserved bytes, the user, the auth response, then the database
and the plugin name when their flags are set. -/
def handshakeResponse41 (cap maxPacket : UInt32) (collation : UInt8) (user auth db plugin : Bytes) :
    Bytes :=
  le32 cap ++ le32 maxPacket ++ [collation] ++ List.replicate 23 0 ++ user ++ [0] ++
    authResponseField cap auth ++ (if cap &&& ClientConnectWithDB ≠ 0 then db ++ [0] else []) ++
    (if cap &&& ClientPluginAuth ≠ 0 then plugin ++ [0] else [])

theorem readAuthData_of_drop {data : Slice} {pos : Nat} {cap : UInt32} {auth r : Bytes}
    (hf : AuthFits cap auth) (h : data.bytes.drop pos = authResponseField cap auth ++ r) :
    readAuthData data pos cap = some (auth, pos + (authResponseField cap auth).length, true) := by
  unfold AuthFits at hf
  unfold authResponseField at h ⊢
  split_ifs at hf h ⊢ with h1 h2
  · simp [readAuthData, UInt32.zero_lt_iff, h1, ReadLenEncStringAsBytes_of_drop hf h]
  · have hb : auth.length.toUInt8.toNat = auth.length := by simp [Nat.mod_eq_of_lt hf]
    have hl := length_le_of_drop h (by simp)
    simp only [List.cons_append, List.length_cons, Slice.length_bytes] at h hl
    have hd : data.bytes.drop (pos + 1) = auth ++ r := drop_add_of_drop (a := [_]) h
    have hs : data.sub (pos + 1) (↑pos + 1 + ↑auth.length) = some auth :=
      Slice.sub_of_drop (by omega) hd (by omega)
    simp [readAuthData, UInt32.zero_lt_iff, h1, h2, Slice.get_of_drop h, hs, hb]
    omega
  · have hl := length_le_of_drop h (by simp)
    simp only [List.append_assoc, List.singleton_append, List.length_append, List.length_cons,
      Slice.length_bytes] at h hl
    have hs : data.sub pos (↑pos + ↑auth.length) = some auth := Slice.sub_of_drop (by omega) h (by omega)
    simp [readAuthData, UInt32.zero_lt_iff, h1, h2, Slice.drop_of_le (by omega : pos ≤ data.len), h,
      IndexByte_append auth r hf, hs]
    omega

theorem readPluginName_of_drop {data : Slice} {pos : Nat} {cap : UInt32} {p r : Bytes}
    (hc : cap &&& ClientPluginAuth ≠ 0) (hp : 0 ∉ p) (h : data.bytes.drop pos = p ++ 0 :: r) :
    readPluginName data pos cap = some (p, pos + p.length) := by
  have hl := length_le_of_drop (a := p ++ [0]) (by simpa using h) (by simp)
  simp only [List.length_append, List.length_singleton, Slice.length_bytes] at hl
  have hs : data.sub pos (↑pos + ↑p.length) = some p := Slice.sub_of_drop (by omega) h (by omega)
  simp [readPluginName, hc, Slice.drop_of_le (by omega : pos ≤ data.len), h, IndexByte_append p r hp, hs]

theorem readPluginName_native (data : Slice) (pos : Nat) {cap : UInt32} (hc : cap &&& ClientPluginAuth = 0) :
    readPluginName data pos cap = some (AUTH_NATIVE_PASSWORD, pos) := by
  simp [readPluginName, hc]

/-- A well-formed HandshakeResponse41 packet, with any stale bytes after it in the
read buffer, parses back to its fields. -/
theorem readHandshakeResponse_handshakeResponse41 (salt : Bytes) (cap maxPacket : UInt32) (collation : UInt8)
    (user auth db plugin stale : Bytes) (h41 : cap &&& ClientProtocol41 ≠ 0) (hu : 0 ∉ user)
    (ha : AuthFits cap auth) (hd : 0 ∉ db) (hp : 0 ∉ plugin) :
    readHandshakeResponse salt
        (.ok (Slice.withCap (handshakeResponse41 cap maxPacket collation user auth db plugin) stale)) =
      some (.ok
        { Salt := salt, CollationID := collation, User := user, AuthResponse := auth,
          Database := if cap &&& ClientConnectWithDB ≠ 0 then db else [],
          ClientPluginAuth := decide (cap &&& ClientPluginAuth ≠ 0),
          AuthPlugin := if cap &&& ClientPluginAuth ≠ 0 then plugin else AUTH_NATIVE_PASSWORD }) := by
  set data := Slice.withCap (handshakeResponse41 cap maxPacket collation user auth db plugin) stale
  set dbPart : Bytes := if cap &&& ClientConnectWithDB ≠ 0 then db ++ [0] else []
  set pluginPart : Bytes := if cap &&& ClientPluginAuth ≠ 0 then plugin ++ [0] else []
  have h0 : data.bytes.drop 0 = le32 cap ++ (le32 maxPacket ++ ([collation] ++ (List.replicate 23 0 ++
      ((user ++ [0]) ++ (authResponseField cap auth ++ (dbPart ++ pluginPart)))))) := by
    simp [data, handshakeResponse41, dbPart, pluginPart]
  have h4 := drop_add_of_drop h0
  have h8 := drop_add_of_drop h4
  have h9 := drop_add_of_drop h8
  have h32 := drop_add_of_drop h9
  have hA := drop_add_of_drop h32
  have hD := drop_add_of_drop hA
  simp only [length_le32, List.length_singleton, List.length_replicate, List.length_append,
    show 0 + 4 + 4 + 1 + 23 = 32 from rfl, ← Nat.add_assoc] at h4 h8 h9 h32 hA hD
  simp only [List.append_assoc, List.singleton_append] at h32
  simp only [readHandshakeResponse, Option.pure_def, UInt32.zero_lt_iff, ne_eq, decide_not, Option.bind_eq_bind,
    Option.some_bind, ite_not, ReadUint32_of_drop h0, zero_add, h41, ↓reduceIte, ReadUint32_of_drop h4,
    Nat.reduceAdd, ReadByte_of_drop h8, ReadNullString_of_drop hu h32, readAuthData_of_drop ha hA]
  by_cases hc : cap &&& ClientConnectWithDB = 0 <;> by_cases hq : cap &&& ClientPluginAuth = 0 <;>
    simp only [dbPart, pluginPart, hc, hq, ne_eq, not_true, not_false_eq_true, if_true, if_false,
      List.nil_append, List.append_nil] at hD
  · simp [hc, hq, readPluginName_native _ _ hq]
  · simp [hc, hq, readPluginName_of_drop hq hp hD]
  · simp [hc, hq, ReadNullString_of_drop hd hD, readPluginName_native _ _ hq]
  · have hP := drop_add_of_drop hD
    simp only [List.length_append, List.length_singleton, ← Nat.add_assoc] at hP
    rw [List.append_assoc, List.singleton_append] at hD
    simp [hc, hq, ReadNullString_of_drop hd hD, readPluginName_of_drop hq hp hP]

/-- The client of the spec's handshake scenario: capabilities 0x81BEA605 (length-encoded
auth data and a plugin name, no database), user `root`, `mysql_native_password`. -/
theorem readHandshakeResponse_handshakeResponse41_root :
    readHandshakeResponse [] (.ok (Slice.withCap
        (handshakeResponse41 0x81BEA605 0 0x21 (ascii "root") (List.replicate 20 1) [] AUTH_NATIVE_PASSWORD) [])) =
      some (.ok
        { CollationID := 0x21, User := ascii "root", AuthResponse := List.replicate 20 1,
          ClientPluginAuth := true, AuthPlugin := AUTH_NATIVE_PASSWORD }) :=
  (readHandshakeResponse_handshakeResponse41 [] 0x81BEA605 0 0x21 (ascii "root") (List.replicate 20 1) []
    AUTH_NATIVE_PASSWORD [] (by decide) (by decide) (by unfold AuthFits; decide) (by decide) (by decide)).trans rfl

/-! ## Truncated and malformed packets -/

/-- The packet fields up to and including the user name's NUL, for capability flags `cap`. -/
def responsePrefix (cap : UInt32) : Bytes :=
  le32 cap ++ le32 0 ++ [0x21] ++ List.replicate 23 0 ++ ascii "root" ++ [0]

/-- With `CLIENT_SECURE_CONNECTION`, a packet that ends right after the user name
makes `readAuthData` index `data[len(data)]` and panic; a one-byte auth length
larger than what is left slices into the stale bytes after the packet. -/
theorem readHandshakeResponse_truncated :
    readHandshakeResponse [] (.ok (Slice.withCap (responsePrefix 0x8200) [])) = none ∧
    readHandshakeResponse [] (.ok (Slice.withCap (responsePrefix 0x8200 ++ [5, 1, 2]) [7, 7, 7])) =
      some (.ok
        { CollationID := 0x21, User := ascii "root", AuthResponse := [1, 2, 7, 7, 7],
          AuthPlugin := AUTH_NATIVE_PASSWORD }) := ⟨rfl, rfl⟩

/-- A length-encoded auth response given as the NULL marker: `readAuthData` reports
failure with position 0, and `readHandshakeResponse` goes on, reading the database
name from the capability bytes, and succeeds with an empty auth response. -/
theorem readHandshakeResponse_ignores_auth_failure :
    readAuthData (Slice.withCap (responsePrefix 0x200208 ++ [0xFB]) []) 37 0x200208 = some ([], 0, false) ∧
    readHandshakeResponse [] (.ok (Slice.withCap (responsePrefix 0x200208 ++ [0xFB]) [])) =
      some (.ok
        { CollationID := 0x21, User := ascii "root", AuthResponse := [], Database := [8, 2, 0x20],
          AuthPlugin := AUTH_NATIVE_PASSWORD }) := ⟨rfl, rfl⟩

end GoSharding
