/-
**How much a field may gather.**

A peer decides what it sends and in which pieces, and yet it cannot make a field grow: the written
form is gathered piece by piece, and no further piece is taken once it is longer than the limit.
Short of that it is within the limit, and a field that is found too long is over it by the last
piece at most.  What is consumed is bounded in the same way, and so is every field that a scan
reads.

Main definitions:

* `Stream.pieces`, `Stream.longest` — the pieces still to be read, and the length of the longest;
* `piecesTaken` — the pieces that the reading of a field takes from;
* `GathersWithin`, `ReadsWithin` — the bounds of reading on in a field, and of reading one.

Main results:

* `GathersWithin.ended`, `GathersWithin.last`, `GathersWithin.cons` — what one access adds;
* `gathersWithin` — **what is gathered and consumed is bounded**, however the reading ends;
* `readsWithin_scan` — **so it is for every field**, on its own or in a scan.
-/

import AttributeWire.Proofs.Calls
import AttributeWire.Proofs.Readings

set_option relaxedAutoImplicit false
set_option autoImplicit false

namespace AttributeWire

/-! ### The longest piece -/

/-- The length of the longest of some pieces. -/
def Bytes.longest (pieces : List Bytes) : Nat :=
  pieces.foldr (fun piece n => max piece.length n) 0

theorem Bytes.longest_le_iff {pieces : List Bytes} {n : Nat} :
    longest pieces ≤ n ↔ ∀ piece ∈ pieces, piece.length ≤ n := by
  induction pieces with
  | nil => simp [longest]
  | cons piece pieces ih =>
      rw [List.forall_mem_cons, ← ih]
      exact Nat.max_le

/-- The piece of data that an event delivers. -/
def Event.piece? : Event → Option Bytes
  | data piece => some piece
  | fault _ => none

namespace Stream

variable {s s₁ : Stream} {n : Nat}

/-- The pieces still to be read: what is left of the current one, and those to come. -/
def pieces (s : Stream) : List Bytes := s.current :: s.pending.filterMap Event.piece?

/-- The length of the longest piece. -/
def longest (s : Stream) : Nat := Bytes.longest s.pieces

theorem longest_le_iff : s.longest ≤ n ↔ ∀ piece ∈ s.pieces, piece.length ≤ n :=
  Bytes.longest_le_iff

theorem length_le_longest {piece : Bytes} (h : piece ∈ s.pieces) : piece.length ≤ s.longest :=
  longest_le_iff.1 (Nat.le_refl _) piece h

theorem filterMap_piece?_skipInterrupts (events : List Event) :
    (skipInterrupts events).filterMap Event.piece? = events.filterMap Event.piece? := by
  fun_induction skipInterrupts events with
  | case1 f rest h ih => exact ih
  | case2 => rfl
  | case3 => rfl

@[simp] theorem pieces_settle (s : Stream) : s.settle.pieces = s.pieces := by
  unfold settle
  split
  · rw [pieces, pieces, filterMap_piece?_skipInterrupts]
  · rfl

/-- A fill brings no piece that was not to come. -/
theorem pieces_fill_subset (s : Stream) : s.fill.2.pieces ⊆ s.pieces := by
  obtain ⟨current, pending, ending⟩ := s
  match current, pending with
  | _ :: _, _ => exact List.Subset.refl _
  | [], .data piece :: rest => exact List.subset_cons_self _ _
  | [], .fault f :: rest => exact List.Subset.refl _
  | [], [] => cases ending <;> exact List.Subset.refl _

/-- **An access brings no piece that was not to come.** -/
theorem pieces_access_subset (s : Stream) : s.access.2.pieces ⊆ s.pieces := by
  have hfill := s.settle.pieces_fill_subset
  rw [pieces_settle] at hfill
  unfold access
  split
  · rename_i hfirst
    rw [hfirst] at hfill
    exact fun piece hpiece => hfill (pieces_fill_subset _ hpiece)
  · rename_i hfirst
    rwa [hfirst] at hfill

/-- What an access shows is one of the pieces. -/
theorem mem_pieces_of_access {piece : Bytes} (h : s.access = (.ok piece, s₁)) :
    piece ∈ s.pieces := by
  have hsubset := s.pieces_access_subset
  rw [h] at hsubset
  rw [← current_of_access h]
  exact hsubset List.mem_cons_self

/-- A piece that is partly consumed is no longer than it was. -/
theorem longest_consume_le (s : Stream) (n : Nat) : (s.consume n).longest ≤ s.longest := by
  refine longest_le_iff.2 fun piece hpiece => ?_
  rcases List.mem_cons.1 hpiece with rfl | hpending
  · calc (s.current.drop n).length ≤ s.current.length := by rw [List.length_drop]; omega
      _ ≤ s.longest := length_le_longest List.mem_cons_self
  · exact length_le_longest (List.mem_cons_of_mem _ hpending)

/-- **Nothing that is done to a stream makes its longest piece longer.** -/
theorem keptByAccess_longest (n : Nat) : KeptByAccess fun s => s.longest ≤ n where
  access := fun {s} hs => longest_le_iff.2 fun piece hpiece =>
    longest_le_iff.1 hs piece (s.pieces_access_subset hpiece)
  consume := fun {s} hs m => Nat.le_trans (s.longest_consume_le m) hs

theorem longest_access_consume_le {answer : Except Fault Bytes} (h : s.access = (answer, s₁))
    (n : Nat) : (s₁.consume n).longest ≤ s.longest :=
  (keptByAccess_longest s.longest).consume
    ((keptByAccess_longest s.longest).access_eq (Nat.le_refl _) h) n

/-- Once the current piece is used up, the other pieces are those that were to come. -/
theorem mem_pieces_of_used_up {piece shown : Bytes} (h : s.access = (.ok shown, s₁))
    (hpiece : piece ∈ (s₁.consume shown.length).pieces) (hne : piece ≠ []) : piece ∈ s.pieces := by
  have hsubset := s.pieces_access_subset
  rw [h] at hsubset
  rcases List.mem_cons.1 hpiece with rfl | hpending
  · refine absurd ?_ hne
    rw [consume, current_of_access h, List.drop_length]
  · exact hsubset (List.mem_cons_of_mem _ hpending)

end Stream

/-! ### The pieces that are taken -/

/-- The pieces that reading on in a field takes from: what each access shows, until one holds a
delimiter or makes the field too long. -/
def piecesTaken (limit : Nat) (raw : Bytes) (s : Stream) : List Bytes :=
  match _h : s.access with
  | (.error _, _) => []
  | (.ok [], _) => []
  | (.ok (b :: bs), s) =>
      match breakField (b :: bs) with
      | (_, some _) => [b :: bs]
      | (before, none) =>
          if limit < (raw ++ before).length then [b :: bs]
          else (b :: bs) :: piecesTaken limit (raw ++ before) (s.consume (bs.length + 1))
termination_by s.unread.length
decreasing_by
  exact Stream.length_unread_access_consume _h (Nat.succ_pos _)

theorem piecesTaken_eq (limit : Nat) (raw : Bytes) (s : Stream) :
    piecesTaken limit raw s =
      match s.access with
      | (.error _, _) => []
      | (.ok [], _) => []
      | (.ok (b :: bs), s₁) =>
          match breakField (b :: bs) with
          | (_, some _) => [b :: bs]
          | (before, none) =>
              if limit < (raw ++ before).length then [b :: bs]
              else (b :: bs) :: piecesTaken limit (raw ++ before) (s₁.consume (bs.length + 1)) := by
  rw [piecesTaken]
  rcases s.access with ⟨_ | _ | _, s₁⟩ <;> rfl

/-! ### The bounds of reading on -/

/-- The field was found too long. -/
def FieldRead.IsTooLong (r : FieldRead) : Prop := ∃ bound, r.outcome = .error (.tooLong bound)

/-- Reading on in a field of which `raw` has been gathered stays within bounds: what it adds stands
before the first delimiter of the pieces that it takes, and neither what was gathered nor what is
consumed exceeds the limit by more than a piece. -/
structure GathersWithin (limit : Nat) (raw : Bytes) (s : Stream) (taken : List Bytes)
    (r : FieldRead) : Prop where
  gathered : r.raw = raw ++ (breakField taken.flatten).1
  known : ∀ piece ∈ taken, piece ≠ [] ∧ piece ∈ s.pieces
  fits : ¬ r.IsTooLong → r.raw.length ≤ limit
  tooLong : ∀ bound, r.outcome = .error (.tooLong bound) → bound = limit ∧ limit < r.raw.length ∧
    ∃ last, taken.getLast? = some last ∧ r.raw.length ≤ limit + last.length
  consumed : ∃ front, s.unread = front ++ r.stream.unread ∧
    raw.length + front.length ≤ limit + s.longest

namespace GathersWithin

variable {limit : Nat} {raw before : Bytes} {s s₁ : Stream} {b : UInt8} {bs : Bytes}
  {delimiter : Option Delimiter} {taken : List Bytes} {r : FieldRead}

/-- The access shows no data: nothing is gathered and nothing is consumed. -/
theorem ended {answer : Except Fault Bytes} {e : FieldError} (hraw : raw.length ≤ limit)
    (haccess : s.access = (answer, s₁)) (he : ∀ bound, e ≠ .tooLong bound) :
    GathersWithin limit raw s [] ⟨.error e, raw, s₁⟩ where
  gathered := (List.append_nil raw).symm
  known := by simp
  fits _ := hraw
  tooLong bound h := absurd (Except.error.inj h) (he bound)
  consumed := by
    refine ⟨[], (Stream.unread_of_access haccess).symm, ?_⟩
    rw [List.length_nil]
    omega

/-- The piece that is taken is the last: the field ends there, or is found too long.  What was
gathered before is within the limit, so that this piece accounts for all that is over it. -/
theorem last {outcome : Except FieldError Field} {n : Nat} (hraw : raw.length ≤ limit)
    (haccess : s.access = (.ok (b :: bs), s₁)) (hbreak : breakField (b :: bs) = (before, delimiter))
    (hbefore : before.length ≤ n) (hn : n ≤ (b :: bs).length)
    (htooLong : limit < (raw ++ before).length → outcome = .error (.tooLong limit))
    (hfits : ¬ limit < (raw ++ before).length → ∀ bound, outcome ≠ .error (.tooLong bound)) :
    GathersWithin limit raw s [b :: bs] ⟨outcome, raw ++ before, s₁.consume n⟩ where
  gathered := by rw [List.flatten_singleton, hbreak]
  known := by
    intro piece hmem
    obtain rfl := List.mem_singleton.1 hmem
    exact ⟨List.cons_ne_nil _ _, Stream.mem_pieces_of_access haccess⟩
  fits hnot := by
    by_contra hover
    exact hnot ⟨limit, htooLong (Nat.lt_of_not_le hover)⟩
  tooLong bound h := by
    have hover : limit < (raw ++ before).length := by
      by_contra hle
      exact hfits hle bound h
    obtain rfl : limit = bound :=
      FieldError.tooLong.inj (Except.error.inj ((htooLong hover).symm.trans h))
    refine ⟨rfl, hover, b :: bs, rfl, ?_⟩
    rw [List.length_append]
    omega
  consumed := by
    have hfront : ((b :: bs).take n).length = n := List.length_take_of_le hn
    have hunread := Stream.unread_access_consume haccess (List.take_append_drop n _).symm
    rw [hfront] at hunread
    have hlongest := Stream.length_le_longest (Stream.mem_pieces_of_access haccess)
    exact ⟨_, hunread, by omega⟩

/-- The piece that is taken is not the last: it is gathered and consumed as a whole. -/
theorem cons (haccess : s.access = (.ok (b :: bs), s₁))
    (hbreak : breakField (b :: bs) = (before, none))
    (h : GathersWithin limit (raw ++ before) (s₁.consume (bs.length + 1)) taken r) :
    GathersWithin limit raw s ((b :: bs) :: taken) r := by
  have hun := undelimited_of_breakField_none hbreak
  obtain rfl := breakField_none hbreak
  refine ⟨?_, ?_, h.fits, fun bound htooLong => ?_, ?_⟩
  · rw [h.gathered, List.flatten_cons, breakField_undelimited_append hun, List.append_assoc]
  · refine List.forall_mem_cons.2 ⟨⟨List.cons_ne_nil _ _, Stream.mem_pieces_of_access haccess⟩, ?_⟩
    intro piece hmem
    obtain ⟨hne, hpiece⟩ := h.known piece hmem
    exact ⟨hne, Stream.mem_pieces_of_used_up haccess hpiece hne⟩
  · obtain ⟨hbound, hover, last, hlast, hle⟩ := h.tooLong bound htooLong
    exact ⟨hbound, hover, last, by rw [List.getLast?_cons, hlast]; rfl, hle⟩
  · obtain ⟨front, hfront, hle⟩ := h.consumed
    refine ⟨b :: bs ++ front, ?_, ?_⟩
    · have hunread := Stream.unread_access_consume haccess (List.append_nil _).symm
      rw [hunread, List.append_assoc, ← hfront]
      rfl
    · have hlongest := Stream.longest_access_consume_le haccess (bs.length + 1)
      rw [List.length_append] at hle ⊢
      omega

end GathersWithin

/-- The delimiter is behind what stands before it. -/
theorem length_lt_of_breakField_some {bytes before : Bytes} {d : Delimiter}
    (h : breakField bytes = (before, some d)) : before.length < bytes.length := by
  obtain ⟨-, rest, rfl⟩ := breakField_some h
  simp

theorem Field.ofRaw_ne_tooLong (raw : Bytes) (d : Delimiter) (bound : Nat) :
    Field.ofRaw raw d ≠ .error (.tooLong bound) := by
  unfold Field.ofRaw
  split <;> simp

/-- **What is gathered and consumed is bounded**, however the reading ends.  The bound is kept by
every piece that is taken, since each is taken with what was gathered before it within the limit. -/
theorem gathersWithin {limit : Nat} {raw : Bytes} (s : Stream) (hraw : raw.length ≤ limit) :
    GathersWithin limit raw s (piecesTaken limit raw s) (readFieldFrom limit raw s) := by
  fun_induction readFieldFrom limit raw s with
  | case1 raw s fault s₁ haccess =>
      rw [piecesTaken_eq, haccess]
      exact .ended hraw haccess (by simp)
  | case2 raw s s₁ haccess =>
      rw [piecesTaken_eq, haccess]
      exact .ended hraw haccess (by simp)
  | case3 raw s b bs s₁ haccess before d hbreak hlong =>
      simp only [piecesTaken_eq limit raw s, haccess, hbreak]
      exact .last hraw haccess hbreak (Nat.le_succ _) (length_lt_of_breakField_some hbreak)
        (fun _ => rfl) (fun hfits => absurd hlong hfits)
  | case4 raw s b bs s₁ haccess before d hbreak hfits =>
      simp only [piecesTaken_eq limit raw s, haccess, hbreak]
      exact .last hraw haccess hbreak (Nat.le_succ _) (length_lt_of_breakField_some hbreak)
        (fun hlong => absurd hlong hfits) (fun _ => Field.ofRaw_ne_tooLong _ _)
  | case5 raw s b bs s₁ haccess before hbreak hlong =>
      simp only [piecesTaken_eq limit raw s, haccess, hbreak, if_pos hlong]
      have hwhole : before.length = (b :: bs).length := by rw [breakField_none hbreak]
      exact .last hraw haccess hbreak (Nat.le_of_eq hwhole) (Nat.le_refl _)
        (fun _ => rfl) (fun hfits => absurd hlong hfits)
  | case6 raw s b bs s₁ haccess before hbreak hfits ih =>
      simp only [piecesTaken_eq limit raw s, haccess, hbreak, if_neg hfits]
      exact .cons haccess hbreak (ih (Nat.le_of_not_lt hfits))

/-! ### The bounds of a field -/

/-- Reading a field stays within bounds: what is gathered is within the limit, unless the field is
found too long, and then it is over the limit by the last piece that was taken at most; and what is
consumed is over the limit by the longest piece at most, or by the delimiter. -/
structure ReadsWithin (limit : Nat) (s : Stream) : Prop where
  gathered : (readField limit s).raw = (breakField (piecesTaken limit [] s).flatten).1
  known : ∀ piece ∈ piecesTaken limit [] s, piece ∈ s.pieces
  fits : ¬ (readField limit s).IsTooLong → (readField limit s).raw.length ≤ limit
  tooLong : ∀ bound, (readField limit s).outcome = .error (.tooLong bound) →
    bound = limit ∧ limit < (readField limit s).raw.length ∧
      ∃ last, (piecesTaken limit [] s).getLast? = some last ∧
        (readField limit s).raw.length ≤ limit + last.length
  consumed : ∃ front, s.unread = front ++ (readField limit s).stream.unread ∧
    front.length ≤ limit + max 1 s.longest

theorem readsWithin (limit : Nat) (s : Stream) : ReadsWithin limit s := by
  have h : GathersWithin limit [] s (piecesTaken limit [] s) (readField limit s) :=
    gathersWithin s (Nat.zero_le limit)
  refine ⟨h.gathered, fun piece hmem => (h.known piece hmem).2, h.fits, h.tooLong, ?_⟩
  obtain ⟨front, hfront, hle⟩ := h.consumed
  refine ⟨front, hfront, ?_⟩
  rw [List.length_nil] at hle
  omega

/-- **A peer cannot make a field grow**: every field that is read stays within bounds, and so does
every field that a scan reads, with the limit of its configuration. -/
theorem readsWithin_scan :
    (∀ limit s, ReadsWithin limit s) ∧
      ∀ (config : Config) (flags : Flags) (list : WishList) (s : Stream),
        ∃ sources, ReadsFrom config s sources (scan config flags list s) ∧
          ∀ s' ∈ sources, ReadsWithin config.fieldLimit s' ∧ s'.longest ≤ s.longest := by
  refine ⟨readsWithin, fun config flags list s => ?_⟩
  obtain ⟨sources, hfrom⟩ := exists_readsFrom config flags list s
  have hkept := (Stream.keptByAccess_longest s.longest).keptByReading config.fieldLimit
  obtain ⟨hsources, -⟩ := hfrom.readings.kept hkept (Nat.le_refl _)
  exact ⟨sources, hfrom, fun s' hmem => ⟨readsWithin _ s', hsources s' hmem⟩⟩

end AttributeWire
