import Mathlib.Data.BitVec
import Mathlib.Data.List.TakeWhile
import Mathlib.Tactic
/-!
# The packet loops of the server

`HandleSocketData` and `HandleLogData` receive into a buffer of zeros that doubles while it is full, and walk the packets
in it.
-/
namespace FexEmu.FEXServer

abbrev Byte := BitVec 8

/-- What the calls receive from the reads of a socket or pipe. A read that leaves room is the last of its call. -/
def calls (data : List Byte) (size : Nat) : List (List Byte) → List (List Byte)
  | [] => [data]
  | read :: reads =>
    if (data ++ read).length = size then calls (data ++ read) (2 * size) reads
    else (data ++ read) :: calls [] 1500 reads

def number (l : List Byte) : Nat := l.foldr (fun x v => x.toNat + 256 * v) 0

/-- The buffer is zero behind the received bytes. -/
def load (b : List Byte) (offset n : Nat) : Nat := number ((b.drop offset).take n)

def bytes : Nat → Nat → List Byte
  | 0, _ => []
  | n + 1, v => BitVec.ofNat 8 v :: bytes n (v / 256)

/-- Offsets and sizes. -/
abbrev Accesses := List (Nat × Nat)

/-- No access goes beyond the buffer. -/
def Inside (b : List Byte) (log : Accesses) : Prop := ∀ a ∈ log, a.1 + a.2 ≤ b.length

/-! ## Requests -/

/-- The requests that the server knows. -/
inductive PacketType
  | TYPE_KILL | TYPE_GET_LOG_FD | TYPE_GET_ROOTFS_PATH | TYPE_GET_PID_FD

/-- The result packets are no cases of the switch, as unknown ones. -/
def PacketType.of : Nat → Option PacketType
  | 0 => some .TYPE_KILL
  | 1 => some .TYPE_GET_LOG_FD
  | 2 => some .TYPE_GET_ROOTFS_PATH
  | 3 => some .TYPE_GET_PID_FD
  | _ => none

def PacketType.toNat : PacketType → Nat
  | .TYPE_KILL => 0
  | .TYPE_GET_LOG_FD => 1
  | .TYPE_GET_ROOTFS_PATH => 2
  | .TYPE_GET_PID_FD => 3

/-- What the server does for a request. -/
inductive Effect
  | shouldShutdown | appendLogFD | sendLogFD | sendPIDFD | sendEmptyError
  | sendMountPath (folder : String)

variable (logThreadRunning : Bool) (mountFolder : String)

def serve : PacketType → List Effect
  | .TYPE_KILL => [.shouldShutdown]
  | .TYPE_GET_LOG_FD => if logThreadRunning then [.appendLogFD, .sendLogFD] else [.sendEmptyError]
  | .TYPE_GET_ROOTFS_PATH => [.sendMountPath mountFolder]
  | .TYPE_GET_PID_FD => [.sendPIDFD]

/-- The loop of `HandleSocketData`. The fuel runs out where it does not end. -/
def handleSocketData (b : List Byte) : Nat → Nat → Option (List Effect × Accesses)
  | 0, _ => none
  | fuel + 1, offset =>
    if offset < b.length then
      match PacketType.of (load b offset 4) with
      | some type => do
        let (effects, log) ← handleSocketData b fuel (offset + 4)
        some (serve logThreadRunning mountFolder type ++ effects, (offset, 4) :: log)
      | none => do
        let (effects, log) ← handleSocketData b fuel offset
        some (effects, (offset, 4) :: log)
    else some ([], [])

/-! ## Messages -/

/-- What `ClientMsgHandler` is given. The text is a C string. -/
@[ext] structure Message where
  timestamp : BitVec 64
  pid : BitVec 32
  tid : BitVec 32
  level : BitVec 32
  text : List Byte
  noNul : ∀ x ∈ text, x ≠ 0

/-- The `PacketMsg` that `MsgHandler` writes, with whatever its last four bytes hold. -/
def header (padding : Message → BitVec 32) (m : Message) : List Byte :=
  bytes 8 m.timestamp.toNat ++ (bytes 4 0 ++ (bytes 4 m.pid.toNat ++ (bytes 4 m.tid.toNat ++ (bytes 4 0 ++
    (bytes 8 (m.text.length + 1) ++ (bytes 4 m.level.toNat ++ bytes 4 (padding m).toNat))))))

variable (padding : Message → BitVec 32)

def msgHandler (m : Message) : List Byte := header padding m ++ (m.text ++ [0])

def messageAt (b : List Byte) (offset : Nat) : Message where
  timestamp := BitVec.ofNat 64 (load b offset 8)
  pid := BitVec.ofNat 32 (load b (offset + 12) 4)
  tid := BitVec.ofNat 32 (load b (offset + 16) 4)
  level := BitVec.ofNat 32 (load b (offset + 32) 4)
  text := (b.drop (offset + 40)).takeWhile (· ≠ 0)
  noNul := fun _ h => by simpa using List.mem_takeWhile_imp h

def next (b : List Byte) (offset : Nat) : Nat := (offset + 40 + load b (offset + 24) 8) % 2 ^ 64

def messageAccesses (offset : Nat) (m : Message) : Accesses :=
  [(offset + 8, 4), (offset, 8), (offset + 12, 4), (offset + 16, 4), (offset + 32, 4), (offset + 40, m.text.length + 1),
    (offset + 24, 8)]

/-- The loop of `HandleLogData`. -/
def handleLogData (b : List Byte) : Nat → Nat → Option (List Message × Accesses)
  | 0, _ => none
  | fuel + 1, offset =>
    if offset < b.length then
      if load b (offset + 8) 4 = 0 then do
        let m := messageAt b offset
        let (messages, log) ← handleLogData b fuel (next b offset)
        some (m :: messages, messageAccesses offset m ++ log)
      else some ([], [(offset + 8, 4)])
    else some ([], [])

/-! ## The statement -/

/-- From an offset on a loop ends with these effects, and reads only bytes that were received. -/
def Serves (b : List Byte) (offset : Nat) (effects : List Effect) : Prop :=
  ∃ fuel log, handleSocketData logThreadRunning mountFolder b fuel offset = some (effects, log) ∧ Inside b log

/-- HandleLogData ends with these messages and stays inside of the buffer. -/
def Delivers (b : List Byte) (offset : Nat) (messages : List Message) : Prop :=
  ∃ fuel log, handleLogData b fuel offset = some (messages, log) ∧ Inside b log

def requests (types : List PacketType) : List Byte := types.flatMap fun type => bytes 4 type.toNat

def written (messages : List Message) : List Byte := messages.flatMap (msgHandler padding)

/-- Both loops end on every read, and whole requests and messages are all served, however they were cut. -/
structure Survives (socket pipe : List (List Byte)) : Prop where
  socketEnds : ∀ b ∈ calls [] 1500 socket, ∃ effects, Serves logThreadRunning mountFolder b 0 effects
  served : ∀ types, socket.flatten = requests types → ∃ effects,
    List.Forall₂ (Serves logThreadRunning mountFolder · 0) (calls [] 1500 socket) effects ∧
      effects.flatten = types.flatMap (serve logThreadRunning mountFolder)
  pipeEnds : ∀ b ∈ calls [] 1500 pipe, ∃ messages, Delivers b 0 messages
  delivered : ∀ messages, pipe.flatten = written padding messages → ∃ parts,
    List.Forall₂ (Delivers · 0) (calls [] 1500 pipe) parts ∧ parts.flatten = messages

/-- The packets of a buffer: messages that are received with their texts, and at last one of another type or none. -/
inductive Walks (b : List Byte) : Nat → Prop
  | stop {offset : Nat} (behind : b.length ≤ offset) : Walks b offset
  | other {offset : Nat} (inside : offset + 12 ≤ b.length) (type : load b (offset + 8) 4 ≠ 0) : Walks b offset
  | message {offset : Nat} (type : load b (offset + 8) 4 = 0)
    (inside : offset + 40 + ((messageAt b offset).text.length + 1) ≤ b.length) (rest : Walks b (next b offset)) :
    Walks b offset

/-! ## Numbers and prefixes -/

theorem length_bytes (n v : Nat) : (bytes n v).length = n := by
  induction n generalizing v with
  | zero => rfl
  | succ n ih => simp [bytes, ih]

theorem number_bytes (n v : Nat) : number (bytes n v) = v % 256 ^ n := by
  induction n generalizing v with
  | zero => simp [bytes, number, Nat.mod_one]
  | succ n ih =>
    have tail : number (bytes (n + 1) v) = (BitVec.ofNat 8 v).toNat + 256 * number (bytes n (v / 256)) := rfl
    rw [tail, ih, BitVec.toNat_ofNat, show 256 ^ (n + 1) = 2 ^ 8 * 256 ^ n from pow_succ' ..]
    exact Nat.mod_mul.symm

theorem bytes_number (l : List Byte) : bytes l.length (number l) = l := by
  induction l with
  | nil => rfl
  | cons x l ih =>
    have tail : number (x :: l) = x.toNat + 256 * number l := rfl
    rw [List.length_cons, bytes, tail, show (x.toNat + 256 * number l) / 256 = number l by omega, ih]
    congr 1
    apply BitVec.eq_of_toNat_eq
    rw [BitVec.toNat_ofNat]
    omega

variable {b : List Byte} {offset : Nat}

theorem load_prefixed {n v : Nat} (h : bytes n v <+: b.drop offset) : load b offset n = v % 256 ^ n := by
  obtain ⟨rest, h⟩ := h
  rw [load, ← h, List.take_left' (length_bytes n v), number_bytes]

theorem ofNat_load (n : Nat) {x : BitVec (8 * n)} (h : bytes n x.toNat <+: b.drop offset) :
    BitVec.ofNat (8 * n) (load b offset n) = x := by
  apply BitVec.eq_of_toNat_eq
  rw [load_prefixed h, BitVec.toNat_ofNat, show 256 ^ n = 2 ^ (8 * n) from (Nat.pow_mul 2 8 n).symm, Nat.mod_mod,
    Nat.mod_eq_of_lt x.isLt]

theorem prefix_split {l l' : List Byte} (h : l ++ l' <+: b.drop offset) :
    l <+: b.drop offset ∧ l' <+: b.drop (offset + l.length) := by
  obtain ⟨rest, h⟩ := h
  refine ⟨⟨l' ++ rest, by rw [← h, List.append_assoc]⟩, ⟨rest, ?_⟩⟩
  rw [← List.drop_drop, ← h, List.append_assoc, List.drop_left]

theorem flatten_calls (data : List Byte) (size : Nat) (reads : List (List Byte)) :
    (calls data size reads).flatten = data ++ reads.flatten := by
  induction reads generalizing data size with
  | nil => simp [calls]
  | cons read reads ih =>
    unfold calls
    split <;> simp [ih]

theorem inside_cons {a : Nat × Nat} {log : Accesses} : Inside b (a :: log) ↔ a.1 + a.2 ≤ b.length ∧ Inside b log :=
  List.forall_mem_cons

/-! ## Requests -/

section
variable {logThreadRunning mountFolder}

theorem requests_of_serves (fuel : Nat) {effects : List Effect} {log : Accesses}
    (ran : handleSocketData logThreadRunning mountFolder b fuel offset = some (effects, log)) (inside : Inside b log) :
    ∃ types, b.drop offset = requests types := by
  induction fuel generalizing offset effects log with
  | zero => cases ran
  | succ fuel ih =>
    unfold handleSocketData at ran
    split at ran
    · rename_i here
      split at ran
      · rename_i type known
        obtain ⟨⟨effects', log'⟩, ran', same⟩ := Option.bind_eq_some_iff.mp ran
        obtain ⟨rfl, rfl⟩ := Prod.mk.inj (Option.some.inj same)
        obtain ⟨four, rest⟩ := inside_cons.mp inside
        obtain ⟨types, all⟩ := ih ran' rest
        have code : load b offset 4 = type.toNat := by
          unfold PacketType.of at known
          split at known <;> cases known <;> assumption
        have length : ((b.drop offset).take 4).length = 4 := by
          rw [List.length_take, List.length_drop]
          omega
        have first : (b.drop offset).take 4 = bytes 4 type.toNat := by
          have := bytes_number ((b.drop offset).take 4)
          rw [length] at this
          rw [← this, ← code, load]
        refine ⟨type :: types, ?_⟩
        rw [← List.take_append_drop 4 (b.drop offset), first, List.drop_drop, all]
        rfl
      · obtain ⟨⟨effects', log'⟩, ran', same⟩ := Option.bind_eq_some_iff.mp ran
        obtain ⟨rfl, rfl⟩ := Prod.mk.inj (Option.some.inj same)
        exact ih ran' (inside_cons.mp inside).2
    · rename_i behind
      exact ⟨[], List.drop_eq_nil_of_le (Nat.le_of_not_lt behind)⟩

theorem of_toNat (type : PacketType) : PacketType.of type.toNat = some type := by
  cases type <;> rfl

theorem serves_requests (types : List PacketType) (all : b.drop offset = requests types) :
    Serves logThreadRunning mountFolder b offset (types.flatMap (serve logThreadRunning mountFolder)) := by
  induction types generalizing offset with
  | nil =>
    refine ⟨1, [], ?_, by simp [Inside]⟩
    rw [handleSocketData, if_neg (Nat.not_lt.mpr (List.drop_eq_nil_iff.mp all))]
    rfl
  | cons type types ih =>
    have pieces : bytes 4 type.toNat ++ requests types <+: b.drop offset := ⟨[], by rw [all]; simp [requests]⟩
    have length := congrArg List.length all
    rw [List.length_drop, requests, List.flatMap_cons, List.length_append, length_bytes] at length
    have first := load_prefixed (prefix_split pieces).1
    have tail : b.drop (offset + 4) = requests types := by
      rw [← List.drop_drop, all, requests, List.flatMap_cons, List.drop_left' (length_bytes ..)]
      rfl
    obtain ⟨fuel, log, ran, inside⟩ := ih tail
    refine ⟨fuel + 1, (offset, 4) :: log, ?_, inside_cons.mpr ⟨by dsimp only; omega, inside⟩⟩
    have code : load b offset 4 = type.toNat := by
      rw [first]
      cases type <;> rfl
    rw [handleSocketData, if_pos (by omega), code, of_toNat]
    simp only [ran]
    rfl

theorem requests_split {types types' : List PacketType} (h : requests types <+: requests types') :
    ∃ rest, types' = types ++ rest := by
  induction types generalizing types' with
  | nil => exact ⟨types', rfl⟩
  | cons type types ih =>
    obtain ⟨rest, h⟩ := h
    cases types' with
    | nil => cases type <;> cases h
    | cons type' types' =>
      rw [requests, requests, List.flatMap_cons, List.flatMap_cons, List.append_assoc] at h
      obtain ⟨first, others⟩ := List.append_inj h (by rw [length_bytes, length_bytes])
      have same := congrArg number first
      obtain ⟨rest', rfl⟩ := ih ⟨rest, others⟩
      refine ⟨rest', ?_⟩
      cases type <;> cases type' <;> first | rfl | cases same

end

/-! ## Messages -/

theorem walks_of_delivers (fuel : Nat) {messages : List Message} {log : Accesses}
    (ran : handleLogData b fuel offset = some (messages, log)) (inside : Inside b log) : Walks b offset := by
  induction fuel generalizing offset messages log with
  | zero => cases ran
  | succ fuel ih =>
    unfold handleLogData at ran
    split at ran
    · split at ran
      · rename_i type
        obtain ⟨⟨messages', log'⟩, ran', same⟩ := Option.bind_eq_some_iff.mp ran
        obtain ⟨rfl, rfl⟩ := Prod.mk.inj (Option.some.inj same)
        have text := inside (offset + 40, (messageAt b offset).text.length + 1) (by simp [messageAccesses])
        exact .message type text (ih ran' fun a h => inside a (List.mem_append_right _ h))
      · rename_i type
        obtain ⟨rfl, rfl⟩ := Prod.mk.inj (Option.some.inj ran)
        exact .other (by simpa [Inside, Nat.add_assoc] using inside) type
    · rename_i behind
      exact .stop (Nat.le_of_not_lt behind)

/-- What one message adds to a delivery. -/
theorem delivers_cons {messages : List Message} (type : load b (offset + 8) 4 = 0)
    (inside : offset + 40 + ((messageAt b offset).text.length + 1) ≤ b.length) (rest : Delivers b (next b offset) messages) :
    Delivers b offset (messageAt b offset :: messages) := by
  obtain ⟨fuel, log, ran, others⟩ := rest
  refine ⟨fuel + 1, messageAccesses offset (messageAt b offset) ++ log, ?_, ?_⟩
  · rw [handleLogData, if_pos (by omega), if_pos type, ran]
    rfl
  · rintro a h
    rcases List.mem_append.mp h with h | h
    · simp only [messageAccesses, List.mem_cons, List.not_mem_nil, or_false] at h
      rcases h with rfl | rfl | rfl | rfl | rfl | rfl | rfl <;> dsimp only <;> omega
    · exact others a h

theorem delivers_of_walks (walks : Walks b offset) : ∃ messages, Delivers b offset messages := by
  induction walks with
  | stop behind => exact ⟨[], 1, [], by rw [handleLogData, if_neg (Nat.not_lt.mpr behind)], by simp [Inside]⟩
  | @other offset inside type =>
    exact ⟨[], 1, [(offset + 8, 4)], by rw [handleLogData, if_pos (by omega), if_neg type], by simp [Inside]; omega⟩
  | message type inside _ ih =>
    obtain ⟨messages, delivers⟩ := ih
    exact ⟨_, delivers_cons type inside delivers⟩

variable {padding}

theorem length_header (m : Message) : (header padding m).length = 40 := by
  simp [header, length_bytes]

theorem messageAt_eq {m : Message} {rest : List Byte} (short : b.length < 2 ^ 64)
    (h : b.drop offset = msgHandler padding m ++ rest) :
    load b (offset + 8) 4 = 0 ∧ messageAt b offset = m ∧ next b offset = offset + (msgHandler padding m).length ∧
      offset + (msgHandler padding m).length ≤ b.length := by
  have total := congrArg List.length h
  have size : (msgHandler padding m).length = 40 + (m.text.length + 1) := by simp [msgHandler, length_header]
  rw [List.length_drop, List.length_append, size] at total
  have head : header padding m <+: b.drop offset := ⟨m.text ++ [0] ++ rest, by simp [h, msgHandler]⟩
  obtain ⟨timestamp, h1⟩ := prefix_split head
  obtain ⟨type, h2⟩ := prefix_split h1
  obtain ⟨pid, h3⟩ := prefix_split h2
  obtain ⟨tid, h4⟩ := prefix_split h3
  obtain ⟨pad, h5⟩ := prefix_split h4
  obtain ⟨length, h6⟩ := prefix_split h5
  obtain ⟨level, -⟩ := prefix_split h6
  simp only [length_bytes, Nat.add_assoc, Nat.reduceAdd] at type pid tid length level
  have text : b.drop (offset + 40) = m.text ++ (0 :: rest) := by
    rw [← List.drop_drop, h, msgHandler, List.append_assoc, List.drop_left' (length_header m), List.append_assoc]
    rfl
  refine ⟨load_prefixed type, ?_, ?_, by omega⟩
  · ext1
    · exact ofNat_load 8 timestamp
    · exact ofNat_load 4 pid
    · exact ofNat_load 4 tid
    · exact ofNat_load 4 level
    · dsimp only [messageAt]
      rw [text, List.takeWhile_append_of_pos fun x hx => by simpa using m.noNul x hx]
      simp
  · rw [next, load_prefixed length, size]
    omega

theorem delivers_written (short : b.length < 2 ^ 64) {messages : List Message}
    (h : b.drop offset = written padding messages) : Delivers b offset messages := by
  induction messages generalizing offset with
  | nil => exact ⟨1, [], by rw [handleLogData, if_neg (Nat.not_lt.mpr (List.drop_eq_nil_iff.mp h))], by simp [Inside]⟩
  | cons m messages ih =>
    obtain ⟨type, same, after, inside⟩ := messageAt_eq short h
    have rest : Delivers b (next b offset) messages := by
      apply ih
      rw [after, ← List.drop_drop, h]
      exact List.drop_left
    have := delivers_cons type ?_ rest
    · rwa [same] at this
    · rw [same]
      simpa [msgHandler, length_header, Nat.add_assoc] using inside

/-- Of messages that were cut a call walks only whole ones: the text of the last would not end. -/
theorem written_split (short : b.length < 2 ^ 64) {messages : List Message} (walks : Walks b offset)
    (h : b.drop offset <+: written padding messages) :
    ∃ first rest, messages = first ++ rest ∧ b.drop offset = written padding first := by
  induction messages generalizing offset with
  | nil => exact ⟨[], [], rfl, List.prefix_nil.mp h⟩
  | cons m messages ih =>
    by_cases empty : b.length ≤ offset
    · exact ⟨[], m :: messages, rfl, List.drop_eq_nil_of_le empty⟩
    have first : msgHandler padding m <+: written padding (m :: messages) := List.prefix_append ..
    -- the bytes end behind whole messages, or in one, and then the walk would not end there
    by_cases whole : (msgHandler padding m).length ≤ (b.drop offset).length
    · obtain ⟨tail, split⟩ := List.prefix_of_prefix_length_le first h whole
      obtain ⟨type, -, after, inside⟩ := messageAt_eq short split.symm
      cases walks with
      | stop behind => exact absurd behind empty
      | other _ other => exact absurd type other
      | message _ _ rest =>
        have tailIs : b.drop (next b offset) = tail := by
          rw [after, ← List.drop_drop, ← split, List.drop_left]
        obtain ⟨g, rest', rfl, all⟩ := ih rest (by
          rw [tailIs]
          rw [← split] at h
          exact (List.prefix_append_right_inj _).mp h)
        refine ⟨m :: g, rest', rfl, ?_⟩
        rw [← split, ← tailIs, all]
        rfl
    · have cut := List.prefix_of_prefix_length_le h first (Nat.le_of_not_le whole)
      have size : (msgHandler padding m).length = 40 + (m.text.length + 1) := by simp [msgHandler, length_header]
      have length := List.length_drop (l := b) (i := offset)
      exfalso
      cases walks with
      | stop behind => exact empty behind
      | other inside type =>
        have head : bytes 8 m.timestamp.toNat ++ bytes 4 0 <+: msgHandler padding m := by
          exact (List.prefix_append_right_inj _).mpr (List.prefix_append ..)
        have there := List.prefix_of_prefix_length_le head cut (by simp [length_bytes]; omega)
        exact type (by simpa [length_bytes] using load_prefixed (prefix_split there).2)
      | message _ inside _ =>
        obtain ⟨text, split⟩ := List.prefix_of_prefix_length_le (List.prefix_append ..) cut (by rw [length_header]; omega)
        rw [← split, msgHandler, List.prefix_append_right_inj, List.prefix_concat_iff] at cut
        rw [← split, List.length_append, length_header] at length whole
        rcases cut with rfl | cut
        · exact whole (by rw [size, List.length_append, List.length_singleton])
        · have textIs : (messageAt b offset).text = text := by
            dsimp only [messageAt]
            rw [← List.drop_drop, ← split, List.drop_left' (length_header m), List.takeWhile_eq_self_iff]
            intro x hx
            simpa using m.noNul x (cut.subset hx)
          rw [textIs] at inside
          omega

/-! ## Runs -/

theorem parts_of_chunks {α : Type} {encode : α → List Byte} (nonempty : ∀ a, encode a ≠ []) {chunks : List (List Byte)}
    (split : ∀ chunk ∈ chunks, ∀ l : List α, chunk <+: l.flatMap encode →
      ∃ first rest, l = first ++ rest ∧ chunk = first.flatMap encode) {l : List α} (h : chunks.flatten = l.flatMap encode) :
    ∃ parts : List (List α), chunks = parts.map (List.flatMap encode) ∧ parts.flatten = l := by
  induction chunks generalizing l with
  | nil =>
    cases l with
    | nil => exact ⟨[], rfl, rfl⟩
    | cons a l => exact absurd (List.append_eq_nil_iff.mp h.symm).1 (nonempty a)
  | cons chunk chunks ih =>
    obtain ⟨first, rest, rfl, rfl⟩ := split chunk List.mem_cons_self l ⟨chunks.flatten, h⟩
    rw [List.flatten_cons, List.flatMap_append] at h
    obtain ⟨parts, rfl, rfl⟩ := ih (fun c hc => split c (List.mem_cons_of_mem _ hc)) (List.append_cancel_left h)
    exact ⟨first :: parts, rfl, rfl⟩

theorem length_le_of_mem_calls {reads : List (List Byte)} {chunk : List Byte} (h : chunk ∈ calls [] 1500 reads) :
    chunk.length ≤ reads.flatten.length := by
  have := (List.sublist_flatten_of_mem h).length_le
  rwa [flatten_calls] at this

/-- The server survives exactly when a call on a socket receives whole request packets, and one on a pipe packets that end
with what was received. -/
theorem server_survives_iff (socket pipe : List (List Byte)) (fits : pipe.flatten.length < 2 ^ 64) :
    Survives logThreadRunning mountFolder padding socket pipe ↔
      (∀ b ∈ calls [] 1500 socket, ∃ types, b = requests types) ∧ ∀ b ∈ calls [] 1500 pipe, Walks b 0 := by
  constructor
  · intro survives
    refine ⟨fun b h => ?_, fun b h => ?_⟩
    · obtain ⟨effects, fuel, log, ran, inside⟩ := survives.socketEnds b h
      exact requests_of_serves fuel ran inside
    · obtain ⟨messages, fuel, log, ran, inside⟩ := survives.pipeEnds b h
      exact walks_of_delivers fuel ran inside
  · rintro ⟨whole, walks⟩
    refine ⟨fun b h => ?_, fun types all => ?_, fun b h => delivers_of_walks (walks b h), fun messages all => ?_⟩
    · obtain ⟨types, rfl⟩ := whole b h
      exact ⟨_, serves_requests types rfl⟩
    · rw [← List.nil_append socket.flatten, ← flatten_calls [] 1500] at all
      obtain ⟨parts, same, rfl⟩ := parts_of_chunks (fun type => by simp [bytes])
        (fun chunk h l there => by
          obtain ⟨types, rfl⟩ := whole chunk h
          obtain ⟨rest, rfl⟩ := requests_split there
          exact ⟨types, rest, rfl, rfl⟩) all
      refine ⟨parts.map fun part => part.flatMap (serve logThreadRunning mountFolder), ?_, ?_⟩
      swap
      · simp [List.flatMap, List.flatten_flatten, Function.comp_def]
      rw [same, List.forall₂_map_left_iff, List.forall₂_map_right_iff, List.forall₂_same]
      exact fun part _ => serves_requests part rfl
    · rw [← List.nil_append pipe.flatten, ← flatten_calls [] 1500] at all
      have short : ∀ b ∈ calls [] 1500 pipe, b.length < 2 ^ 64 := fun b h =>
        Nat.lt_of_le_of_lt (length_le_of_mem_calls h) fits
      obtain ⟨parts, same, rfl⟩ := parts_of_chunks (fun m => by simp [msgHandler])
        (fun chunk h l there => written_split (short chunk h) (walks chunk h) there) all
      refine ⟨parts, ?_, rfl⟩
      have delivers : ∀ part ∈ parts, Delivers (written padding part) 0 part := fun part h =>
        delivers_written (short _ (same ▸ List.mem_map_of_mem h)) rfl
      rw [same, List.forall₂_map_left_iff, List.forall₂_same]
      exact delivers

/-- A read that fills the buffer is cut: the next one belongs to the same call. -/
theorem calls_filled {first second : List Byte} (fills : first.length = 1500) (room : second.length ≠ 1500) :
    calls [] 1500 [first, second] = [first ++ second, []] := by
  have short : (first ++ second).length ≠ 2 * 1500 := by
    rw [List.length_append, fills]
    omega
  rw [calls, List.nil_append, if_pos fills, calls, if_neg short]
  rfl

theorem length_requests (types : List PacketType) : (requests types).length = 4 * types.length := by
  induction types with
  | nil => rfl
  | cons type types ih =>
    rw [requests, List.flatMap_cons, List.length_append, length_bytes, List.length_cons, Nat.mul_succ, Nat.add_comm]
    exact congrArg (· + 4) ih

theorem length_msgHandler (m : Message) : (msgHandler padding m).length = 41 + m.text.length := by
  rw [msgHandler, List.length_append, length_header, List.length_append, List.length_singleton]
  omega

def longMessage : Message := ⟨5, 100, 101, 2, List.replicate 1470 0x61, fun x h => by simp [List.eq_of_mem_replicate h]⟩

def shortMessage : Message := ⟨6, 100, 102, 3, [0x68, 0x69], by decide⟩

/-- 377 requests, and the text of a message, in two reads of one call each. -/
theorem server_survives_cut : Survives true "/mnt" (fun _ => 7)
    [requests (List.replicate 375 .TYPE_GET_PID_FD), requests [.TYPE_GET_LOG_FD, .TYPE_KILL]]
    [(written (fun _ => 7) [longMessage]).take 1500,
      (written (fun _ => 7) [longMessage]).drop 1500 ++ written (fun _ => 7) [shortMessage]] := by
  have pids : (requests (List.replicate 375 .TYPE_GET_PID_FD)).length = 1500 := by
    rw [length_requests, List.length_replicate]
  have long : (written (fun _ => 7) [longMessage]).length = 1511 := by
    rw [written, List.flatMap_singleton, length_msgHandler, longMessage, List.length_replicate]
  have short : (written (fun _ => 7) [shortMessage]).length = 43 := by
    rw [written, List.flatMap_singleton, length_msgHandler]
    rfl
  have all : (written (fun _ => 7) [longMessage]).take 1500 ++
      ((written (fun _ => 7) [longMessage]).drop 1500 ++ written (fun _ => 7) [shortMessage]) =
        written (fun _ => 7) [longMessage, shortMessage] := by
    rw [← List.append_assoc, List.take_append_drop, written, written, ← List.flatMap_append]
    rfl
  have size : (written (fun _ => 7) [longMessage, shortMessage]).length = 1554 := by
    rw [← all, List.length_append, List.length_append, List.length_take, List.length_drop, long, short]
    rfl
  refine (server_survives_iff true "/mnt" _ _ ?_).mpr ⟨fun b h => ?_, fun b h => ?_⟩
  · rw [List.flatten_cons, List.flatten_cons, List.flatten_nil, List.append_nil, all, size]
    decide
  · rw [calls_filled pids (by rw [length_requests]; decide)] at h
    rcases List.mem_cons.mp h with rfl | h
    · exact ⟨List.replicate 375 .TYPE_GET_PID_FD ++ [.TYPE_GET_LOG_FD, .TYPE_KILL], by
        rw [requests, requests, requests, List.flatMap_append]⟩
    · exact ⟨[], List.mem_singleton.mp h⟩
  · rw [calls_filled (by rw [List.length_take, long]; rfl)
      (by rw [List.length_append, List.length_drop, long, short]; decide), all] at h
    rcases List.mem_cons.mp h with rfl | h
    · obtain ⟨fuel, log, ran, inside⟩ := delivers_written (b := written (fun _ => 7) [longMessage, shortMessage])
        (by rw [size]; decide) List.drop_zero
      exact walks_of_delivers fuel ran inside
    · rw [List.mem_singleton.mp h]
      exact .stop (Nat.le_refl _)

theorem handleSocketData_result (fuel : Nat) : handleSocketData true "" [5, 0, 0, 0] fuel 0 = none := by
  induction fuel with
  | zero => rfl
  | succ fuel ih =>
    have type : PacketType.of (load [5, 0, 0, 0] 0 4) = none := by decide
    rw [handleSocketData, if_pos (by decide), type]
    rw [ih]
    rfl

/-- The loop does not end at a packet of a result. -/
theorem server_hangs : ¬∀ (logThreadRunning : Bool) (mountFolder : String) (padding : Message → BitVec 32)
    (socket pipe : List (List Byte)), pipe.flatten.length < 2 ^ 64 →
      Survives logThreadRunning mountFolder padding socket pipe := by
  intro all
  obtain ⟨effects, fuel, log, ran, -⟩ :=
    (all true "" (fun _ => 0) [[5, 0, 0, 0]] [] (by decide)).socketEnds [5, 0, 0, 0] List.mem_cons_self
  rw [handleSocketData_result] at ran
  cases ran

end FexEmu.FEXServer
