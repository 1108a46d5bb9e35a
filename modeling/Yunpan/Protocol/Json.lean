import Yunpan.Protocol.Message

/-!
# The JSON bodies of frames

`serde_json::to_vec` writes compact JSON: fields in declaration order, the
variant in a leading tag, strings with the short escapes where JSON has them
and `\u00xx` for the remaining control characters.  The tags are those of the
serde attributes on the message types.
-/

namespace Yunpan.Protocol

/-- The bytes of a string. -/
def utf8 (text : String) : List UInt8 := text.toByteArray.data.toList

theorem utf8_injective : Function.Injective utf8 := by
  intro left right heq
  have hdata : left.toByteArray.data = right.toByteArray.data :=
    Array.toList_inj.mp heq
  exact String.toByteArray_inj.mp (ByteArray.ext hdata)

theorem utf8_append (left right : String) :
    utf8 (left ++ right) = utf8 left ++ utf8 right := by
  simp [utf8]

theorem fromUTF8?_utf8 (text : String) :
    String.fromUTF8? ⟨(utf8 text).toArray⟩ = some text := by
  have hbytes : (⟨(utf8 text).toArray⟩ : ByteArray) = text.toByteArray := by
    simp [utf8]
  rw [hbytes, String.fromUTF8?, dif_pos text.isValidUTF8]
  rfl

def jsonEscape (c : Char) : List Char :=
  if c = '"' then ['\\', '"']
  else if c = '\\' then ['\\', '\\']
  else if c = '\n' then ['\\', 'n']
  else if c = '\r' then ['\\', 'r']
  else if c = '\t' then ['\\', 't']
  else if c.toNat = 8 then ['\\', 'b']
  else if c.toNat = 12 then ['\\', 'f']
  else if c.toNat < 32 then
    ['\\', 'u', '0', '0', Nat.digitChar (c.toNat / 16), Nat.digitChar (c.toNat % 16)]
  else [c]

def jsonString (text : String) : String :=
  "\"" ++ String.ofList (text.toList.flatMap jsonEscape) ++ "\""

def jsonMembers : List (String × String) → String
  | [] => ""
  | [(key, value)] => jsonString key ++ ":" ++ value
  | (key, value) :: rest =>
      jsonString key ++ ":" ++ value ++ "," ++ jsonMembers rest

def jsonObject (members : List (String × String)) : String :=
  "\x7b" ++ jsonMembers members ++ "\x7d"

def Role.toJson : Role → String
  | .control clientId =>
      jsonObject [("kind", jsonString "control"), ("client_id", jsonString clientId)]
  | .data clientId connId =>
      jsonObject [("kind", jsonString "data"), ("client_id", jsonString clientId),
        ("conn_id", connId.toNat.repr)]

def ClientMsg.toJson : ClientMsg → String
  | .hello proto role agent =>
      jsonObject [("t", jsonString "hello"), ("proto", proto.toNat.repr),
        ("role", role.toJson), ("agent", jsonString agent)]
  | .auth mac => jsonObject [("t", jsonString "auth"), ("mac", jsonString mac)]
  | .bind name remotePort =>
      jsonObject [("t", jsonString "bind"), ("name", jsonString name),
        ("remote_port", remotePort.toNat.repr)]
  | .pong ts => jsonObject [("t", jsonString "pong"), ("ts", ts.toNat.repr)]
  | .bye reason => jsonObject [("t", jsonString "bye"), ("reason", jsonString reason)]

def ServerMsg.toJson : ServerMsg → String
  | .challenge nonce =>
      jsonObject [("t", jsonString "challenge"), ("nonce", jsonString nonce)]
  | .authOk server heartbeatSecs =>
      jsonObject [("t", jsonString "auth_ok"), ("server", jsonString server),
        ("heartbeat_secs", heartbeatSecs.toNat.repr)]
  | .authErr reason =>
      jsonObject [("t", jsonString "auth_err"), ("reason", jsonString reason)]
  | .bindOk name remotePort publicUrl =>
      jsonObject [("t", jsonString "bind_ok"), ("name", jsonString name),
        ("remote_port", remotePort.toNat.repr),
        ("public_url", (publicUrl.map jsonString).getD "null")]
  | .bindErr name reason =>
      jsonObject [("t", jsonString "bind_err"), ("name", jsonString name),
        ("reason", jsonString reason)]
  | .newConn connId name peer =>
      jsonObject [("t", jsonString "new_conn"), ("conn_id", connId.toNat.repr),
        ("name", jsonString name), ("peer", jsonString peer)]
  | .ping ts => jsonObject [("t", jsonString "ping"), ("ts", ts.toNat.repr)]
  | .bye reason => jsonObject [("t", jsonString "bye"), ("reason", jsonString reason)]

def ClientMsg.toVec (msg : ClientMsg) : List UInt8 := utf8 msg.toJson

def ServerMsg.toVec (msg : ServerMsg) : List UInt8 := utf8 msg.toJson

example : (ServerMsg.bindOk "a\"\n" 8080 none).toJson =
    "\x7b\"t\":\"bind_ok\",\"name\":\"a\\\"\\n\",\"remote_port\":8080,\"public_url\":null\x7d" := by
  decide +kernel

end Yunpan.Protocol
