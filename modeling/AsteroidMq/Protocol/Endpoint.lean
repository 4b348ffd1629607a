import Mathlib.Data.Finmap

/-!
# Endpoints, messages and their statuses

The vocabulary of `topic.rs`: endpoint addresses, node ids, messages, the per-endpoint
status of a message and the subject/interest patterns that route it. The modules that define
them (`endpoint.rs`, `interest.rs`) are not part of the sources at hand, so everything here is
modelled from the specification, as each docstring says; `topic.rs` only reads these types.

Identifiers are snowflakes and timestamps are seconds: both are `ℕ`. A `Message` keeps its
header only; the payload is carried along unread by every modelled function.
-/

namespace AsteroidMq

/-- Modelled from the spec: `EndpointAddr`, a snowflake-style 128-bit address. -/
abbrev EndpointAddr := ℕ

/-- Modelled from the spec: `NodeId`, the cluster-unique id of a broker instance. -/
abbrev NodeId := ℕ

/-- Modelled from the spec: `MessageId`, a snowflake-style message id. -/
abbrev MessageId := ℕ

/-- Modelled from the spec: `TimestampSec`, a wall-clock reading in seconds. -/
abbrev TimestampSec := ℕ

/-! ## Statuses -/

/-- Modelled from the spec: `MessageStatusKind`, the status of a message at one endpoint.
`Unsent < Sent < Received < Processed` is the progress chain; `Unreachable` and `Failed` are
terminal failures. -/
inductive MessageStatusKind
  | unsent
  | sent
  | received
  | processed
  | unreachable
  | failed
  deriving DecidableEq, Repr

/-- Modelled from the spec: the ack kind a message requires of each endpoint
(`None < Sent < Received < Processed`). -/
inductive MessageAckExpectKind
  | none
  | sent
  | received
  | processed
  deriving DecidableEq, Repr

/-- Modelled from the spec: `MessageTargetKind`, the recipient selection policy. -/
inductive MessageTargetKind
  | durable
  | online
  | push
  | available
  deriving DecidableEq, Repr

namespace MessageStatusKind

/-- The place of a status on the progress chain; failures have none. -/
def progress : MessageStatusKind → Option ℕ
  | unsent => some 0
  | sent => some 1
  | received => some 2
  | processed => some 3
  | unreachable => none
  | failed => none

/-- The terminal failures `Unreachable` and `Failed`. -/
def isFailed (s : MessageStatusKind) : Bool :=
  s.progress.isNone

/-- `a.lt b`: `b` is an upgrade of `a`. Along the chain the place rises, and a status short of
`Processed` may fail; failures and `Processed` are final. -/
def lt (a b : MessageStatusKind) : Bool :=
  match a.progress, b.progress with
  | some i, some j => decide (i < j)
  | some i, none => decide (i < 3)
  | none, _ => false

/-- `a.le b`: `b` is `a` or an upgrade of it. -/
def le (a b : MessageStatusKind) : Prop :=
  a = b ∨ a.lt b = true

instance (a b : MessageStatusKind) : Decidable (a.le b) :=
  inferInstanceAs (Decidable (_ ∨ _))

theorem lt_trans {a b c : MessageStatusKind} (hab : a.lt b = true) (hbc : b.lt c = true) :
    a.lt c = true := by
  cases a <;> cases b <;> cases hab <;> cases c <;> cases hbc <;> rfl

/-- Nothing is an upgrade to `Unsent`. -/
@[simp] theorem lt_unsent (a : MessageStatusKind) : a.lt unsent = false := by
  cases a <;> rfl

@[simp] theorem le_refl (a : MessageStatusKind) : a.le a :=
  .inl rfl

theorem le_trans {a b c : MessageStatusKind} (hab : a.le b) (hbc : b.le c) : a.le c := by
  rcases hab with rfl | hab
  · exact hbc
  · rcases hbc with rfl | hbc
    · exact .inr hab
    · exact .inr (lt_trans hab hbc)

/-- Every status but `Unsent` itself is an upgrade of `Unsent`. -/
theorem unsent_le (a : MessageStatusKind) : unsent.le a := by
  cases a <;> simp [le, lt, progress]

/-- A status above a status other than `Unsent` is not `Unsent`. -/
theorem ne_unsent_of_le {a b : MessageStatusKind} (ha : a ≠ unsent) (h : a.le b) : b ≠ unsent := by
  rintro rfl
  rcases h with rfl | h
  · exact ha rfl
  · simp at h

/-- A failure is final. -/
theorem eq_of_le_of_isFailed {a b : MessageStatusKind} (ha : a.isFailed = true) (h : a.le b) :
    b = a := by
  rcases h with rfl | h
  · rfl
  · cases a <;> simp_all [isFailed, lt, progress]

end MessageStatusKind

/-- The place of an ack kind on the chain `None < Sent < Received < Processed`. -/
def MessageAckExpectKind.rank : MessageAckExpectKind → ℕ
  | .none => 0
  | .sent => 1
  | .received => 2
  | .processed => 3

/-- Modelled from the spec: a status settles an endpoint for ack kind `k` when it is at least `k`
on the progress chain or is a terminal failure. -/
def MessageStatusKind.settles (s : MessageStatusKind) (k : MessageAckExpectKind) : Bool :=
  match s.progress with
  | some i => decide (k.rank ≤ i)
  | none => true

/-! ## Subjects and interests -/

/-- Modelled from the spec: a concrete subject, its dot-separated segments. -/
structure Subject where
  segments : List String
  deriving DecidableEq, Repr

/-- Modelled from the spec: one segment of an interest pattern; `any` is `*` and `rest` is the
trailing `>`. -/
inductive InterestSegment
  | literal (s : String)
  | any
  | rest
  deriving DecidableEq, Repr

/-- Modelled from the spec: an interest pattern. -/
structure Interest where
  segments : List InterestSegment
  deriving DecidableEq, Repr

/-- Segment-wise matching: `*` takes one segment and `>` one or more trailing segments; neither
takes an empty segment. -/
def segmentsMatch : List InterestSegment → List String → Bool
  | [], [] => true
  | [.rest], s :: ss => s != "" && ss.all (· != "")
  | .any :: is, s :: ss => s != "" && segmentsMatch is ss
  | .literal l :: is, s :: ss => l == s && segmentsMatch is ss
  | _, _ => false

/-- Modelled from the spec: whether an interest pattern matches a concrete subject. -/
def Interest.matches (i : Interest) (s : Subject) : Bool :=
  segmentsMatch i.segments s.segments

/-! ## Messages -/

/-- Modelled from the spec: the header fields of a `Message` that the topic reads. -/
structure MessageHeader where
  messageId : MessageId
  ackKind : MessageAckExpectKind
  targetKind : MessageTargetKind
  subjects : List Subject
  deriving DecidableEq, Repr

/-- Modelled from the spec: a `Message`; its payload is never read by the topic. -/
structure Message where
  header : MessageHeader
  deriving DecidableEq, Repr

/-- `Message::id`. -/
def Message.id (m : Message) : MessageId :=
  m.header.messageId

/-- `Message::ack_kind`. -/
def Message.ackKind (m : Message) : MessageAckExpectKind :=
  m.header.ackKind

/-- Modelled from the spec: `MessageStateUpdate`, acks for one message. The status map is taken
as a list of pairs in its iteration order; any list is allowed, duplicates included. -/
structure MessageStateUpdate where
  messageId : MessageId
  status : List (EndpointAddr × MessageStatusKind)
  deriving DecidableEq, Repr

/-- `MessageStateUpdate::new_empty`. -/
def MessageStateUpdate.newEmpty (id : MessageId) : MessageStateUpdate :=
  ⟨id, []⟩

/-- Modelled from the spec: `EpInfo`, one endpoint row as exchanged by endpoint sync. -/
structure EpInfo where
  addr : EndpointAddr
  host : NodeId
  interests : List Interest
  latestActive : TimestampSec
  deriving DecidableEq, Repr

/-- A weak reference to a local endpoint (`LocalEndpointRef`): `upgrade` succeeds while the
endpoint is alive. -/
structure LocalEndpointRef where
  alive : Bool
  deriving DecidableEq, Repr

end AsteroidMq
