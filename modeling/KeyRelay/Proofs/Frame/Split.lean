import KeyRelay.Frame.Transfer
import KeyRelay.Proofs.Stream.Source

/-! # Cutting a byte stream into frames

Every byte string is a number of whole frames and a rest that begins with none,
in one way only. Reading frame by frame gives exactly these payloads; what
then ends the reading is told by the rest and by how the stream ended. -/
set_option autoImplicit false

namespace KeyRelay.Frame

def whole (payload : List UInt8) : List UInt8 :=
  header payload.length ++ payload

theorem encode_eq {payload : List UInt8} {max : Nat} (fits : payload.length ≤ max)
    (bounded : max < UInt32.size) : encode payload max = .ok (whole payload) := by
  rw [encode, if_pos ⟨fits, by omega⟩, whole]

theorem length_header (length : Nat) : (header length).length = headerLength :=
  rfl

/-- Completing a frame in place gives the same bytes and keeps what is behind. -/
theorem complete_of_fits {room payload behind : List UInt8} {max : Nat}
    (four : room.length = headerLength) (fits : payload.length ≤ max)
    (bounded : max < UInt32.size) :
    complete (room ++ (payload ++ behind)) payload.length max =
      (.ok (whole payload), whole payload ++ behind) := by
  have enough : headerLength + payload.length ≤ (room ++ (payload ++ behind)).length := by
    rw [List.length_append, List.length_append, four]
    omega
  have content : (room ++ (payload ++ behind)).drop headerLength = payload ++ behind :=
    List.drop_left' four
  have front : (whole payload ++ behind).take (headerLength + payload.length) = whole payload :=
    List.take_left' (by rw [whole, List.length_append, length_header])
  have completed : header payload.length ++ (payload ++ behind) = whole payload ++ behind := by
    rw [whole, List.append_assoc]
  rw [complete, if_pos ⟨fits, enough, by omega⟩]
  simp only [content, completed, front]

theorem length_whole (payload : List UInt8) :
    (whole payload).length = headerLength + payload.length := by
  rw [whole, List.length_append, length_header]

theorem bigEndian_header {length : Nat} (bounded : length < UInt32.size) :
    bigEndian (header length) = length := by
  have size : UInt32.size = 4294967296 := rfl
  simp only [bigEndian, header, List.foldl_cons, List.foldl_nil, UInt8.toNat_ofNat']
  omega

theorem header_bigEndian {received : List UInt8} (four : received.length = headerLength) :
    header (bigEndian received) = received := by
  match received, four with
  | [a, b, c, d], _ =>
    have aBound := a.toNat_lt
    have bBound := b.toNat_lt
    have cBound := c.toNat_lt
    have dBound := d.toNat_lt
    simp only [bigEndian, header, List.foldl_cons, List.foldl_nil, List.cons.injEq,
      ← UInt8.toNat_inj, UInt8.toNat_ofNat', and_true]
    omega

/-- The length announced at the front of a byte string. -/
def declared (bytes : List UInt8) : Nat :=
  bigEndian (bytes.take headerLength)

theorem declared_header {length : Nat} (rest : List UInt8) (bounded : length < UInt32.size) :
    declared (header length ++ rest) = length := by
  rw [declared, List.take_left' (length_header length), bigEndian_header bounded]

/-- The byte string begins with a whole frame. -/
def Starts (max : Nat) (bytes : List UInt8) : Prop :=
  headerLength ≤ bytes.length ∧ declared bytes ≤ max ∧
    headerLength + declared bytes ≤ bytes.length

instance (max : Nat) (bytes : List UInt8) : Decidable (Starts max bytes) :=
  inferInstanceAs (Decidable (_ ∧ _ ∧ _))

/-- The payloads of the whole frames at the front of a byte string, and what is
behind them. -/
def split (max : Nat) (bytes : List UInt8) : List (List UInt8) × List UInt8 :=
  if _starts : Starts max bytes then
    let behind := split max (bytes.drop (headerLength + declared bytes))
    ((bytes.drop headerLength).take (declared bytes) :: behind.1, behind.2)
  else ([], bytes)
termination_by bytes.length
decreasing_by
  have length : headerLength = 4 := rfl
  have enough := _starts.1
  rw [List.length_drop]
  omega

/-- The front of a frame announces the frame's length once its header is there. -/
theorem declared_of_cut {cut payload : List UInt8} (part : cut <+: whole payload)
    (enough : headerLength ≤ cut.length) (bounded : payload.length < UInt32.size) :
    declared cut = payload.length := by
  obtain ⟨behind, joined⟩ := part
  have front : cut.take headerLength = header payload.length := by
    have taken : (cut ++ behind).take headerLength = (whole payload).take headerLength := by
      rw [joined]
    rwa [List.take_append_of_le_length enough, whole,
      List.take_left' (length_header payload.length)] at taken
  rw [declared, front, bigEndian_header bounded]

theorem not_starts_of_cut {max : Nat} {cut payload : List UInt8} (part : cut <+: whole payload)
    (shorter : cut.length < (whole payload).length) (bounded : payload.length < UInt32.size) :
    ¬ Starts max cut := by
  rintro ⟨enough, _, complete⟩
  rw [declared_of_cut part enough bounded] at complete
  rw [length_whole] at shorter
  omega

theorem starts_whole {max : Nat} {payload : List UInt8} (rest : List UInt8)
    (fits : payload.length ≤ max) (bounded : max < UInt32.size) :
    Starts max (whole payload ++ rest) := by
  have announced : declared (whole payload ++ rest) = payload.length := by
    rw [whole, List.append_assoc]
    exact declared_header _ (by omega)
  rw [Starts, announced, List.length_append, length_whole]
  omega

theorem split_whole {max : Nat} {payload : List UInt8} (rest : List UInt8)
    (fits : payload.length ≤ max) (bounded : max < UInt32.size) :
    split max (whole payload ++ rest) = (payload :: (split max rest).1, (split max rest).2) := by
  have announced : declared (whole payload ++ rest) = payload.length := by
    rw [whole, List.append_assoc]
    exact declared_header _ (by omega)
  have content : (whole payload ++ rest).drop headerLength = payload ++ rest := by
    rw [whole, List.append_assoc, List.drop_left' (length_header _)]
  have behind : (whole payload ++ rest).drop (headerLength + payload.length) = rest :=
    List.drop_left' (length_whole payload)
  rw [split, dif_pos (starts_whole rest fits bounded), announced, content, behind,
    List.take_left]

theorem split_of_not_starts {max : Nat} {bytes : List UInt8} (stuck : ¬ Starts max bytes) :
    split max bytes = ([], bytes) := by
  rw [split, dif_neg stuck]

theorem exists_whole_of_starts {max : Nat} {bytes : List UInt8} (starts : Starts max bytes) :
    ∃ payload rest, bytes = whole payload ++ rest ∧ payload.length ≤ max := by
  obtain ⟨enough, fits, complete⟩ := starts
  have four : (bytes.take headerLength).length = headerLength := by
    rw [List.length_take]
    omega
  have size : ((bytes.drop headerLength).take (declared bytes)).length = declared bytes := by
    rw [List.length_take, List.length_drop]
    omega
  refine ⟨(bytes.drop headerLength).take (declared bytes),
    (bytes.drop headerLength).drop (declared bytes), ?_, by omega⟩
  rw [whole, size, declared, header_bigEndian four, List.append_assoc, List.take_append_drop,
    List.take_append_drop]

/-- The payloads are those of whole frames, and the rest begins with none. -/
structure Split (max : Nat) (bytes : List UInt8) (payloads : List (List UInt8))
    (rest : List UInt8) : Prop where
  joined : bytes = payloads.flatMap whole ++ rest
  bounded : ∀ payload ∈ payloads, payload.length ≤ max
  stuck : ∀ payload behind, payload.length ≤ max → rest ≠ whole payload ++ behind

theorem split_flatMap {max : Nat} {payloads : List (List UInt8)} (rest : List UInt8)
    (fits : ∀ payload ∈ payloads, payload.length ≤ max) (bounded : max < UInt32.size) :
    split max (payloads.flatMap whole ++ rest) =
      (payloads ++ (split max rest).1, (split max rest).2) := by
  induction payloads with
  | nil => rfl
  | cons payload others ih =>
    have head : payload.length ≤ max := fits payload (by simp)
    have tail := ih fun other member => fits other (by simp [member])
    rw [List.flatMap_cons, List.append_assoc, split_whole _ head bounded, tail]
    rfl

/-- There is no other way to cut a byte string into frames. -/
theorem Split.split_eq {max : Nat} {bytes rest : List UInt8} {payloads : List (List UInt8)}
    (found : Split max bytes payloads rest) (bounded : max < UInt32.size) :
    split max bytes = (payloads, rest) := by
  have stuck : ¬ Starts max rest := by
    intro starts
    obtain ⟨payload, behind, front, fits⟩ := exists_whole_of_starts starts
    exact found.stuck payload behind fits front
  rw [found.joined, split_flatMap rest found.bounded bounded, split_of_not_starts stuck,
    List.append_nil]

/-- Without one of its frames a byte string is cut into the others. -/
theorem Split.remove {max : Nat} {bytes rest removed : List UInt8}
    {front back : List (List UInt8)} (found : Split max bytes (front ++ removed :: back) rest) :
    Split max ((front ++ back).flatMap whole ++ rest) (front ++ back) rest := by
  refine ⟨rfl, ?_, found.stuck⟩
  intro payload member
  apply found.bounded payload
  rcases List.mem_append.mp member with before | behind
  · exact List.mem_append_left _ before
  · exact List.mem_append_right _ (List.mem_cons_of_mem _ behind)

theorem split_spec (max : Nat) (bounded : max < UInt32.size) (bytes : List UInt8) :
    Split max bytes (split max bytes).1 (split max bytes).2 := by
  induction size : bytes.length using Nat.strongRecOn generalizing bytes with
  | ind total ih =>
    by_cases starts : Starts max bytes
    · obtain ⟨payload, rest, rfl, fits⟩ := exists_whole_of_starts starts
      -- A frame has four bytes at least, so what is behind it is shorter.
      have shorter : rest.length < total := by
        have length : headerLength = 4 := rfl
        rw [List.length_append, length_whole] at size
        omega
      obtain ⟨joined, others, stuck⟩ := ih rest.length shorter rest rfl
      rw [split_whole rest fits bounded]
      refine ⟨?_, ?_, stuck⟩
      · rw [List.flatMap_cons, List.append_assoc, ← joined]
      · intro other member
        rcases List.mem_cons.mp member with rfl | member
        · exact fits
        · exact others other member
    · rw [split_of_not_starts starts]
      refine ⟨rfl, by simp, ?_⟩
      intro payload behind fits front
      apply starts
      rw [show bytes = whole payload ++ behind from front]
      exact starts_whole behind fits bounded

end KeyRelay.Frame
