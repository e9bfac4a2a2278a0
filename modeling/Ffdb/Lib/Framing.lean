import Ffdb.Lib.Bytes

/-! Payloads sent one behind another, each behind its length in four bytes; and servers that answer the payloads of a
stream one by one. -/
namespace Framing
open Octets
open Sha256 (bytesOf length_bytesOf)

def frame (payload : List UInt8) : List UInt8 := bytesOf 4 payload.length ++ payload

/-- What stands in front of an input: a payload and what comes behind it, something that is no frame, or too little. -/
inductive Front where
  | more
  | invalid
  | payload (payload rest : List UInt8)

def front (limit : Nat) (input : List UInt8) : Front :=
  match readExact 4 input with
  | none => .more
  | some (head, rest) =>
    if ofBytes head = 0 ∨ limit < ofBytes head then .invalid
    else match readExact (ofBytes head) rest with
      | none => .more
      | some (payload, rest') => .payload payload rest'

def Fits (limit : Nat) (payload : List UInt8) : Prop := payload ≠ [] ∧ payload.length ≤ limit

variable {limit : Nat} {payload input rest : List UInt8}

theorem length_frame (payload : List UInt8) : (frame payload).length = 4+payload.length := by
  rw [frame, List.length_append, length_bytesOf]

theorem frame_ne_nil (payload : List UInt8) : frame payload ≠ [] :=
  List.ne_nil_of_length_pos (by rw [length_frame]; omega)

theorem front_frame_append (hlimit : limit < 256^4) (h : Fits limit payload) (rest : List UInt8) :
    front limit (frame payload ++ rest) = .payload payload rest := by
  have hhead : readExact 4 (frame payload ++ rest) = some (bytesOf 4 payload.length, payload ++ rest) := by
    rw [readExact_eq_some_iff, frame, List.append_assoc]
    exact ⟨rfl, length_bytesOf 4 _⟩
  have hbody : readExact payload.length (payload ++ rest) = some (payload, rest) :=
    readExact_eq_some_iff.mpr ⟨rfl, rfl⟩
  have hpos : payload.length ≠ 0 := fun hzero => h.1 (List.length_eq_zero_iff.mp hzero)
  have hfits : payload.length ≤ limit := h.2
  simp only [front, hhead, ofBytes_bytesOf (hfits.trans_lt hlimit), hbody]
  rw [if_neg (by omega)]

/-- A frame that has not come in whole is waited for. -/
theorem front_of_append (hlimit : limit < 256^4) (h : Fits limit payload) (hsplit : frame payload = input ++ rest)
    (hrest : rest ≠ []) : front limit input = .more := by
  have hlength := congrArg List.length hsplit
  rw [length_frame, List.length_append] at hlength
  have hpos : rest.length ≠ 0 := fun hzero => hrest (List.length_eq_zero_iff.mp hzero)
  unfold front
  cases hhead : readExact 4 input with
  | none => rfl
  | some found =>
    obtain ⟨head, body⟩ := found
    obtain ⟨rfl, hfour⟩ := readExact_eq_some_iff.mp hhead
    rw [frame, List.append_assoc] at hsplit
    obtain ⟨rfl, rfl⟩ := List.append_inj hsplit ((length_bytesOf 4 _).trans hfour.symm)
    rw [List.length_append] at hlength
    have hbody : readExact (body ++ rest).length body = none := by
      unfold readExact
      rw [if_neg (by rw [List.length_append]; omega)]
    have hvalue : ofBytes (bytesOf 4 (body ++ rest).length) = (body ++ rest).length :=
      ofBytes_bytesOf (h.2.trans_lt hlimit)
    have hfits := h.2
    simp only [hvalue, hbody]
    rw [if_neg (by rw [List.length_append] at hfits ⊢; omega)]

theorem length_of_front (h : front limit input = .payload payload rest) :
    rest.length < input.length := by
  unfold front at h
  cases hhead : readExact 4 input with
  | none => simp [hhead] at h
  | some found =>
    obtain ⟨head, body⟩ := found
    obtain ⟨rfl, hfour⟩ := readExact_eq_some_iff.mp hhead
    simp only [hhead] at h
    split at h
    · cases h
    · cases hbody : readExact (ofBytes head) body with
      | none => simp [hbody] at h
      | some found =>
        simp only [hbody, Front.payload.injEq] at h
        obtain ⟨rfl, -⟩ := readExact_eq_some_iff.mp hbody
        rw [← h.2, List.length_append, List.length_append]
        omega

section Serving
variable {σ : Type} (limit : Nat) (answer : σ → List UInt8 → Option (σ × List UInt8))

/-- What a server reads and writes while an input comes in: the payloads that it takes, and the bytes of its replies. It
stops at an input that is no frame, and when it has no answer. -/
def serve (s : σ) (input : List UInt8) : List (List UInt8) × List UInt8 :=
  match _hfront : front limit input with
  | .payload payload rest =>
    match answer s payload with
    | none => ([payload], [])
    | some (s', reply) => (payload :: (serve s' rest).1, frame reply ++ (serve s' rest).2)
  | _ => ([], [])
termination_by input.length
decreasing_by all_goals exact length_of_front _hfront

variable {limit answer} {s s' : σ} {reply : List UInt8}

theorem serve_of_front (hfront : front limit input = .payload payload rest) : serve limit answer s input =
    match answer s payload with
    | none => ([payload], [])
    | some (s', reply) =>
      (payload :: (serve limit answer s' rest).1, frame reply ++ (serve limit answer s' rest).2) := by
  rw [serve]
  split
  · next hfront' =>
    cases hfront'.symm.trans hfront
    rfl
  · next hnone => exact absurd hfront (hnone _ _)

theorem serve_frame_append (hlimit : limit < 256^4) (h : Fits limit payload) (ha : answer s payload = some (s', reply))
    (rest : List UInt8) : serve limit answer s (frame payload ++ rest) =
      (payload :: (serve limit answer s' rest).1, frame reply ++ (serve limit answer s' rest).2) := by
  rw [serve_of_front (front_frame_append hlimit h rest), ha]

theorem serve_frame_of_none (hlimit : limit < 256^4) (h : Fits limit payload) (ha : answer s payload = none) :
    serve limit answer s (frame payload) = ([payload], []) := by
  rw [← List.append_nil (frame payload), serve_of_front (front_frame_append hlimit h []), ha]

theorem serve_of_more (h : front limit input = .more) : serve limit answer s input = ([], []) := by
  rw [serve]
  split
  · next h' => cases h.symm.trans h'
  · rfl

end Serving

end Framing
