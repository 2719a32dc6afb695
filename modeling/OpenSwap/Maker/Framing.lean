import OpenSwap.Base.Checked
import OpenSwap.Btc.Script

/-!
# The messages of a connection

A message is sent behind its length in four bytes.  The maker's connection loop reads message
after message, and goes on after a timeout while the swap is not quiet.

`served_in_order`: whatever the network does to the stream, a timeout never leaves the loop in
the middle of a message.
-/

namespace OpenSwap

open Btc List

def maxRpcMessageSize : Nat := 10 * 1024 * 1024

/-- The errors of a read, as far as the loop tells them apart. -/
inductive FrameError
  | general (text : String)
  | io (timedOut : Bool)

/-- What a read of the socket meets; when there is nothing left the peer has closed. -/
inductive SocketEvent
  | data (first : UInt8) (more : Bytes)
  | interrupted
  | timedOut
  | failed

/-- `u32::to_be_bytes` -/
def toBeBytes (n : Nat) : Bytes := [24, 16, 8, 0].map fun shift => UInt8.ofNat (n >>> shift)

/-- `u32::from_be_bytes` -/
def fromBeBytes (bytes : Bytes) : Nat := bytes.foldl (fun n b => 256 * n + b.toNat) 0

/-- What `send_message` writes. -/
def frame (message : Bytes) : Bytes := toBeBytes (message.length % 2 ^ 32) ++ message

/-- Read `n` bytes, over short reads; a timeout ends it, as late where there is a deadline. -/
def readExactUntil (deadline : Bool) :
    Nat → List SocketEvent → Except FrameError Bytes × List SocketEvent
  | 0, socket => (.ok [], socket)
  | _ + 1, [] => (.error (.io false), [])
  | n + 1, .interrupted :: rest => readExactUntil deadline (n + 1) rest
  | _ + 1, .timedOut :: rest =>
    (.error (if deadline then .general "Message read deadline expired" else .io true), rest)
  | _ + 1, .failed :: rest => (.error (.io false), rest)
  | n + 1, .data first more :: rest =>
    match more.drop n with
    | b :: bs => (.ok (first :: more.take n), .data b bs :: rest)
    | [] =>
      let (buf, socket) := readExactUntil deadline (n - more.length) rest
      (buf.map (first :: more ++ ·), socket)

/-- `read_message`, with the socket it leaves; `pending` until the swap is established. -/
def readMessage (pending : Bool) (socket : List SocketEvent) :
    Except FrameError Bytes × List SocketEvent :=
  match readExactUntil pending 1 socket with
  | (.error e, socket) => (.error e, socket)
  | (.ok first, socket) =>
    match readExactUntil true 3 socket with
    | (.error e, socket) => (.error e, socket)
    | (.ok others, socket) =>
      let len := fromBeBytes (first ++ others)
      if maxRpcMessageSize < len then (.error (.general "Message too large"), socket)
      else readExactUntil true len socket

/-- The frames the loop of `handle_connection` hands on, in their order; each turn has whether the
permit is pending and whether the swap is quiet. -/
def handedOn : List (Bool × Bool) → List SocketEvent → List Bytes
  | [], _ => []
  | (pending, quiet) :: turns, socket =>
    match readMessage pending socket with
    | (.ok message, socket) => message :: handedOn turns socket
    | (.error (.io true), socket) => if quiet then [] else handedOn turns socket
    | (.error _, _) => []

/-- The bytes that arrive. -/
def arriving : List SocketEvent → Bytes
  | [] => []
  | .data first more :: rest => first :: more ++ arriving rest
  | _ :: rest => arriving rest

/-- The messages in a stream of bytes, up to the first that is too large or not complete. -/
def messagesOf (bytes : Bytes) : List Bytes :=
  let len := fromBeBytes (bytes.take 4)
  if 4 + len ≤ bytes.length ∧ len ≤ maxRpcMessageSize then
    (bytes.drop 4).take len :: messagesOf (bytes.drop (4 + len))
  else []
termination_by bytes.length
decreasing_by
  rename_i h
  rw [length_drop]
  omega

/-- Neither timeouts nor failures. -/
def Calm (socket : List SocketEvent) : Prop := ∀ event ∈ socket, event ≠ .timedOut ∧ event ≠ .failed

/-! ## Reads -/

variable {deadline pending : Bool} {n : Nat} {s s' : List SocketEvent} {e : FrameError}
  {bs message : Bytes}

theorem readExactUntil_ok (h : readExactUntil deadline n s = (.ok bs, s')) :
    arriving s = bs ++ arriving s' ∧ bs.length = n ∧ (Calm s → Calm s') := by
  fun_induction readExactUntil deadline n s generalizing bs s' with
  | case1 => cases h; exact ⟨rfl, rfl, id⟩
  | case2 | case4 | case5 => cases h
  | case3 n rest ih =>
    obtain ⟨harr, hlen, hcalm⟩ := ih h
    exact ⟨harr, hlen, fun hs => hcalm (forall_mem_cons.mp hs).2⟩
  | case6 n first more rest b bs' hdrop =>
    cases h
    have hlen := congrArg length hdrop
    simp only [length_drop, length_cons] at hlen
    refine ⟨?_, by simp only [length_cons, length_take]; omega, fun hs => ?_⟩
    · simp only [arriving, cons_append, cons.injEq, true_and]
      rw [← cons_append, ← hdrop, ← append_assoc, take_append_drop]
    · exact forall_mem_cons.mpr ⟨by simp, (forall_mem_cons.mp hs).2⟩
  | case7 n first more rest hdrop buf socket hread ih =>
    have hall := drop_eq_nil_iff.mp hdrop
    cases buf with
    | error e => cases h
    | ok more' =>
      cases h
      obtain ⟨harr, hlen, hcalm⟩ := ih hread
      refine ⟨by simp [arriving, harr], ?_, fun hs => hcalm (forall_mem_cons.mp hs).2⟩
      simp only [length_append, length_cons, hlen]
      omega

/-- Under a deadline no error is a timeout that the loop goes on after, and while nothing has
been read an error leaves every byte there. -/
theorem readExactUntil_error (h : readExactUntil deadline n s = (.error e, s')) :
    (deadline = true → e ≠ .io true) ∧ (n = 1 → arriving s' = arriving s) ∧
      (Calm s → e ≠ .io true ∧ (arriving s).length < n) := by
  fun_induction readExactUntil deadline n s generalizing s' with
  | case1 | case6 => cases h
  | case2 => cases h; simp [arriving]
  | case3 n rest ih =>
    obtain ⟨hdeadline, hone, hcalm⟩ := ih h
    exact ⟨hdeadline, hone, fun hs => hcalm (forall_mem_cons.mp hs).2⟩
  | case4 n rest =>
    cases h
    refine ⟨fun hd => by simp [hd], fun _ => rfl, fun hs => ?_⟩
    exact absurd rfl (hs _ mem_cons_self).1
  | case5 n rest =>
    cases h
    exact ⟨fun _ => by simp, fun _ => rfl, fun hs => absurd rfl (hs _ mem_cons_self).2⟩
  | case7 n first more rest hdrop buf socket hread ih =>
    have hall := drop_eq_nil_iff.mp hdrop
    cases buf with
    | ok more' => cases h
    | error e =>
      cases h
      obtain ⟨hdeadline, -, hcalm⟩ := ih hread
      refine ⟨hdeadline, fun hn => ?_, fun hs => ?_⟩
      · obtain rfl : n = 0 := by omega
        simp [readExactUntil] at hread
      · obtain ⟨hne, hshort⟩ := hcalm (forall_mem_cons.mp hs).2
        refine ⟨hne, ?_⟩
        simp only [arriving, length_append, length_cons]
        omega

/-! ## Messages -/

theorem messagesOf_append {header body rest : Bytes} (h4 : header.length = 4)
    (hlen : fromBeBytes header = body.length) (hmax : body.length ≤ maxRpcMessageSize) :
    messagesOf (header ++ (body ++ rest)) = body :: messagesOf rest := by
  have htake : (header ++ (body ++ rest)).take 4 = header := by rw [← h4, take_left]
  have hdrop : (header ++ (body ++ rest)).drop 4 = body ++ rest := by rw [← h4, drop_left]
  rw [messagesOf, htake, hlen, ← drop_drop, hdrop, take_left, drop_left, if_pos]
  simp only [length_append, h4]
  omega

theorem readMessage_ok (h : readMessage pending s = (.ok message, s')) :
    messagesOf (arriving s) = message :: messagesOf (arriving s') ∧ (Calm s → Calm s') := by
  unfold readMessage at h
  rcases hfirst : readExactUntil pending 1 s with ⟨_ | first, s₁⟩
  · simp [hfirst] at h
  rcases hothers : readExactUntil true 3 s₁ with ⟨_ | others, s₂⟩
  · simp [hfirst, hothers] at h
  simp only [hfirst, hothers] at h
  split at h
  · cases h
  · rename_i hmax
    obtain ⟨harr₁, hlen₁, hcalm₁⟩ := readExactUntil_ok hfirst
    obtain ⟨harr₂, hlen₂, hcalm₂⟩ := readExactUntil_ok hothers
    obtain ⟨harr, hlen, hcalm⟩ := readExactUntil_ok h
    refine ⟨?_, fun hs => hcalm (hcalm₂ (hcalm₁ hs))⟩
    rw [harr₁, harr₂, harr, ← append_assoc]
    exact messagesOf_append (by simp [hlen₁, hlen₂]) hlen.symm (by omega)

theorem messagesOf_short (h : (arriving s).length < 4 + n)
    (hlen : n = 0 ∨ fromBeBytes ((arriving s).take 4) = n) : messagesOf (arriving s) = [] := by
  rw [messagesOf, if_neg]
  omega

theorem readMessage_error (h : readMessage pending s = (.error e, s')) :
    (e = .io true → arriving s' = arriving s) ∧
      (Calm s → e ≠ .io true ∧ messagesOf (arriving s) = []) := by
  unfold readMessage at h
  rcases hfirst : readExactUntil pending 1 s with ⟨e₁ | first, s₁⟩
  · simp only [hfirst] at h
    cases h
    obtain ⟨-, hone, hcalm⟩ := readExactUntil_error hfirst
    exact ⟨fun _ => hone rfl, fun hs =>
      ⟨(hcalm hs).1, messagesOf_short (by have := (hcalm hs).2; omega) (.inl rfl)⟩⟩
  obtain ⟨harr₁, hlen₁, hcalm₁⟩ := readExactUntil_ok hfirst
  -- from the second byte on there is a deadline
  rcases hothers : readExactUntil true 3 s₁ with ⟨e₂ | others, s₂⟩
  · simp only [hfirst, hothers] at h
    cases h
    obtain ⟨hdeadline, -, hcalm⟩ := readExactUntil_error hothers
    refine ⟨fun he => absurd he (hdeadline rfl), fun hs => ⟨hdeadline rfl, ?_⟩⟩
    have hshort := (hcalm (hcalm₁ hs)).2
    exact messagesOf_short (by rw [harr₁, length_append]; omega) (.inl rfl)
  obtain ⟨harr₂, hlen₂, hcalm₂⟩ := readExactUntil_ok hothers
  have htake : (arriving s).take 4 = first ++ others := by
    rw [harr₁, harr₂, ← append_assoc, take_left' (by simp [hlen₁, hlen₂])]
  simp only [hfirst, hothers] at h
  split at h
  · cases h
    refine ⟨by simp, fun _ => ⟨by simp, ?_⟩⟩
    rw [messagesOf, htake, if_neg (by omega)]
  · obtain ⟨hdeadline, -, hcalm⟩ := readExactUntil_error h
    refine ⟨fun he => absurd he (hdeadline rfl), fun hs => ⟨hdeadline rfl, ?_⟩⟩
    have hshort := (hcalm (hcalm₂ (hcalm₁ hs))).2
    apply messagesOf_short (n := fromBeBytes (first ++ others)) _ (.inr (by rw [htake]))
    rw [harr₁, harr₂, length_append, length_append]
    omega

theorem handedOn_le {turns} : handedOn turns s <+: messagesOf (arriving s) := by
  induction turns generalizing s with
  | nil => exact nil_prefix
  | cons turn turns ih =>
    rw [handedOn]
    split
    · rename_i hread
      rw [(readMessage_ok hread).1]
      exact (prefix_cons_inj _).mpr ih
    · rename_i hread
      split
      · exact nil_prefix
      · rw [← (readMessage_error hread).1 rfl]
        exact ih
    · exact nil_prefix

theorem handedOn_calm {turns} (hs : Calm s) :
    handedOn turns s = (messagesOf (arriving s)).take turns.length := by
  induction turns generalizing s with
  | nil => rfl
  | cons turn turns ih =>
    rw [handedOn]
    split
    · rename_i hread
      obtain ⟨hmessages, hcalm⟩ := readMessage_ok hread
      rw [hmessages, ih (hcalm hs), length_cons, take_succ_cons]
    · rename_i hread
      exact absurd rfl ((readMessage_error hread).2 hs).1
    · rename_i hread
      rw [((readMessage_error hread).2 hs).2]
      rfl

theorem fromBeBytes_toBeBytes (h : n < 2 ^ 32) : fromBeBytes (toBeBytes n) = n := by
  simp [fromBeBytes, toBeBytes, Nat.shiftRight_eq_div_pow]
  omega

theorem messagesOf_frames {messages : List Bytes}
    (h : ∀ message ∈ messages, message.length ≤ maxRpcMessageSize) :
    messagesOf (messages.flatMap frame) = messages := by
  induction messages with
  | nil => rw [messagesOf]; rfl
  | cons message messages ih =>
    obtain ⟨hmax, hrest⟩ := forall_mem_cons.mp h
    have hlt : message.length < 2 ^ 32 := hmax.trans_lt (by decide)
    rw [flatMap_cons, frame, append_assoc, Nat.mod_eq_of_lt hlt,
      messagesOf_append rfl (fromBeBytes_toBeBytes hlt) hmax, ih hrest]

/-- **The messages of a connection**: whatever the network makes of the stream, the loop hands on
the first messages in its bytes, in their order; without timeouts and failures it hands on as
many as it has turns; and the messages in what a peer sends are the ones it sent. -/
theorem served_in_order :
    (∀ turns socket, handedOn turns socket <+: messagesOf (arriving socket)) ∧
    (∀ turns socket, Calm socket →
      handedOn turns socket = (messagesOf (arriving socket)).take turns.length) ∧
    ∀ messages : List Bytes, (∀ message ∈ messages, message.length ≤ maxRpcMessageSize) →
      messagesOf (messages.flatMap frame) = messages :=
  ⟨fun _ _ => handedOn_le, fun _ _ => handedOn_calm, fun _ => messagesOf_frames⟩

end OpenSwap
