import BuildOTron.Core.Wire
import BuildOTron.Lib.Framing

/-! `send_typed` and `recv_typed` over the two bodies of a connection. Neither side
frames its messages: a message is sent as its JSON, and every chunk that comes in is
taken for one. -/
namespace BuildOTron

/-- `recv` and `recv_typed` of the driver's `RunnerClient`, on one chunk: the chunk
becomes a `Value`, and the value a message. -/
def RunnerClient.recvTyped (chunk : List UInt8) : Outcome String ClientProto :=
  match Json.parse chunk with
  | none => .err "not json"
  | some json => .expectSome (ClientProto.ofJson json.asValue)

/-- `recv_typed` of the runner's `RemoteServerRunner`, on one chunk. -/
def RemoteServerRunner.recvTyped (chunk : List UInt8) : Outcome String ClientProto :=
  match (Json.parse chunk).bind ClientProto.ofJson with
  | none => .err "not json"
  | some message => .ok message

def hello : List UInt8 := Json.utf8 "hello"

/-- The check of `RemoteServerRunner::new`, and the chunks it leaves. -/
def RemoteServerRunner.new : List (List UInt8) → Outcome String (List (List UInt8))
  | chunk :: rest => if chunk = hello then .ok rest else .err "bad hello"
  | [] => .err "bad hello"

/-- The calls of `recv_typed` until the body ends. -/
def driverReceives (chunks : List (List UInt8)) : Outcome String (List ClientProto) :=
  chunks.mapM RunnerClient.recvTyped

def runnerReceives (chunks : List (List UInt8)) : Outcome String (List ClientProto) := do
  let rest ← RemoteServerRunner.new chunks
  rest.mapM RemoteServerRunner.recvTyped

/-- A body's bytes, handed over in chunks of the transport's choosing. -/
structure Transported (sent chunks : List (List UInt8)) : Prop where
  bytes : chunks.flatten = sent.flatten
  nonempty : ∀ chunk ∈ chunks, chunk ≠ []

theorem encode_opens (message : ClientProto) : ∃ more, message.encode = 123 :: more := by
  obtain ⟨front, text⟩ := Json.print_obj_last message.members
  exact ⟨front ++ [125], text⟩

theorem parse_encode (message : ClientProto) : Json.parse message.encode = some message.toJson :=
  Json.parse_print_obj (plain_members message) (shallow_members message)

theorem parse_cut (message : ClientProto) (cut : message.encode = first ++ rest) (proper : rest ≠ []) :
    Json.parse first = none :=
  Json.parse_prefix (plain_members message) (shallow_members message) cut proper

theorem parse_joined (message : ClientProto) (more : List UInt8) :
    Json.parse (message.encode ++ 123 :: more) = none :=
  Json.parse_trailing (plain_members message) (shallow_members message) (by decide) more

theorem driver_framed : Framed ClientProto.encode RunnerClient.recvTyped where
  whole message := by
    simp [RunnerClient.recvTyped, parse_encode, asValue_toJson, ofJson_toJson]
  cut message first rest cut proper value := by
    simp [RunnerClient.recvTyped, parse_cut message cut proper]
  opening := by
    refine ⟨123, encode_opens, ?_⟩
    intro message more value
    simp [RunnerClient.recvTyped, parse_joined]

theorem runner_framed : Framed ClientProto.encode RemoteServerRunner.recvTyped where
  whole message := by
    simp [RemoteServerRunner.recvTyped, parse_encode, ofJson_toJson]
  cut message first rest cut proper value := by
    simp [RemoteServerRunner.recvTyped, parse_cut message cut proper]
  opening := by
    refine ⟨123, encode_opens, ?_⟩
    intro message more value
    simp [RemoteServerRunner.recvTyped, parse_joined]

/-- Every message is read back as it was sent, straight from its bytes as the runner
does it and by way of a `Value` as the driver does; the tags it carries, its own and that
of a nested enum, and its fields all have names of their own. -/
theorem wire_round_trip (message : ClientProto) :
    RemoteServerRunner.recvTyped message.encode = .ok message ∧
      RunnerClient.recvTyped message.encode = .ok message ∧ message.toJson.DistinctKeys :=
  ⟨runner_framed.whole message, driver_framed.whole message, distinct_members message⟩

theorem new_eq_ok : RemoteServerRunner.new chunks = .ok rest ↔ chunks = hello :: rest := by
  cases chunks with
  | nil => simp [RemoteServerRunner.new]
  | cons chunk chunks =>
    rw [RemoteServerRunner.new, List.cons.injEq]
    split
    · rename_i greeted
      simp [greeted]
    · rename_i other
      simp [other]

/-- However the transport cuts a body, its messages are received in order and without
an error exactly when every chunk is one message, behind a hello of its own. -/
theorem received_iff_message_per_chunk (messages : List ClientProto) (chunks : List (List UInt8)) :
    (Transported (messages.map ClientProto.encode) chunks →
      (driverReceives chunks = .ok messages ↔ chunks = messages.map ClientProto.encode)) ∧
    (Transported (hello :: messages.map ClientProto.encode) chunks →
      (runnerReceives chunks = .ok messages ↔
        chunks = hello :: messages.map ClientProto.encode)) := by
  constructor
  · intro transported
    exact driver_framed.received_iff messages chunks transported.bytes
  · intro transported
    have bytes := transported.bytes
    rw [runnerReceives, Outcome.bind_eq_ok]
    constructor
    · rintro ⟨rest, greeted, received⟩
      obtain rfl := new_eq_ok.mp greeted
      rw [List.flatten_cons, List.flatten_cons] at bytes
      have rest_bytes := List.append_cancel_left bytes
      rw [(runner_framed.received_iff messages rest rest_bytes).mp received]
    · rintro rfl
      exact ⟨_, new_eq_ok.mpr rfl, runner_framed.receives_words messages⟩

theorem encode_ne_nil (message : ClientProto) : message.encode ≠ [] := by
  obtain ⟨more, text⟩ := encode_opens message
  rw [text]
  exact List.cons_ne_nil _ _

/-- A job's messages, each in a chunk of its own. -/
def someMessages : List ClientProto :=
  [.started, .command (.started ["cargo", "build"] none 1), .command (.finished (some 0) 1),
    .metric "size" "12", .taskStatus (.finished "pass")]

theorem several_received :
    driverReceives (someMessages.map ClientProto.encode) = .ok someMessages ∧
      runnerReceives (hello :: someMessages.map ClientProto.encode) = .ok someMessages := by
  have each : ∀ chunk ∈ someMessages.map ClientProto.encode, chunk ≠ [] :=
    List.forall_mem_map.mpr fun message _ => encode_ne_nil message
  have greeted : ∀ chunk ∈ hello :: someMessages.map ClientProto.encode, chunk ≠ [] :=
    List.forall_mem_cons.mpr ⟨by decide, each⟩
  have framed := received_iff_message_per_chunk someMessages
  exact ⟨((framed _).1 ⟨rfl, each⟩).mpr rfl, ((framed _).2 ⟨rfl, greeted⟩).mpr rfl⟩

/-- Two messages sent back to back and merged by the transport are lost. -/
theorem merged_messages_refused : ¬ ∀ (messages : List ClientProto) (chunks : List (List UInt8)),
    (Transported (messages.map ClientProto.encode) chunks → driverReceives chunks = .ok messages) ∧
    (Transported (hello :: messages.map ClientProto.encode) chunks →
      runnerReceives chunks = .ok messages) := by
  intro claim
  have joined : Transported (([.ping, .pong] : List ClientProto).map ClientProto.encode)
      [ClientProto.ping.encode ++ ClientProto.pong.encode] := by
    refine ⟨by simp, ?_⟩
    simp only [List.mem_singleton, forall_eq]
    decide
  have received := (claim [.ping, .pong] _).1 joined
  have refused : driverReceives [ClientProto.ping.encode ++ ClientProto.pong.encode] =
      .err "not json" := rfl
  rw [refused] at received
  contradiction

end BuildOTron
