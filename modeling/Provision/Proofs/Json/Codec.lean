import Provision.Json.Codec

/-!
# Plain data that is read back

The plain parts of a message are read from their documents as they were written. Lists and
optional parts are as lawful as what they hold, and fields under any keys are read one by one
(`decode_fields`). The members of a record are found under their names, in whatever order they
stand (`readMember_self`, `readMember_other`).
-/

namespace Provision

/-- A type whose values are read back from their documents. -/
class LawfulCodec (α : Type) [Codec α] : Prop where
  decode_encode (a : α) : decode (encode a) = some a

namespace Codec

variable {α : Type} [Codec α]

@[simp]
theorem decode_encode [LawfulCodec α] (a : α) : decode (encode a) = some a :=
  LawfulCodec.decode_encode a

instance : LawfulCodec Bool := ⟨fun _ => rfl⟩

instance : LawfulCodec String := ⟨fun _ => rfl⟩

instance : LawfulCodec UInt8 where
  decode_encode b := by
    have small := b.toNat_lt
    have fits : FitsWord b.toNat := by
      have high : b.toNat < Number.twoPow 64 := Nat.lt_trans small (by decide)
      unfold FitsWord
      omega
    show (decodeNat 256 (Json.ofInt b.toNat)).map Nat.toUInt8 = some b
    unfold Json.ofInt
    rw [dif_pos fits, decodeNat, if_pos (by omega)]
    simp

instance [LawfulCodec α] : LawfulCodec (List α) where
  decode_encode xs := by
    show (xs.map encode).mapM decode = some xs
    induction xs with
    | nil => rfl
    | cons a rest ih => simp [ih]

/-- An optional part is read back if no value is written like a missing one. -/
theorem decode_option [LawfulCodec α] (present : ∀ a : α, encode a ≠ .null) (a? : Option α) :
    decode (encode a?) = some a? := by
  cases a? with
  | none => rfl
  | some a =>
    have written : encode (some a) = encode a := rfl
    have ordinary : (decode (encode a) : Option (Option α)) = (decode (encode a)).map some := by
      cases document : encode a with
      | null => exact absurd document (present a)
      | _ => rfl
    rw [written, ordinary, decode_encode, Option.map_some]

instance : LawfulCodec (Option Bool) := ⟨decode_option fun _ null => by cases null⟩

/-- If every value is read as `f` tells, then so are fields, under the same keys. -/
theorem decode_fields {f : α → α} (read : ∀ a, decode (encode a) = some (f a))
    (fields : Fields α) :
    decode (encode fields) = some (fields.map fun p => (p.1, f p.2)) := by
  show (fields.map fun p => (p.1, encode p.2)).mapM (fun p => (decode p.2).map (p.1, ·)) = _
  induction fields with
  | nil => rfl
  | cons field rest ih => simp [ih, read]

instance [LawfulCodec α] : LawfulCodec (Fields α) where
  decode_encode fields := by
    rw [decode_fields decode_encode, List.map_id']

/-! ### Records

A record is read member by member. The rules apply to the first read that is left, so that what
follows is not looked at before it is its turn. -/

variable {β : Type} {name other : String} {document : Json} {rest : Fields Json} {default : α}

@[simp ↓]
theorem membersOf_bind (names : List String) (members : Fields Json)
    (next : Fields Json → Option β) :
    membersOf names (.object members) >>= next = next members := by
  rw [membersOf, Option.bind_eq_bind, Option.bind_some]

@[simp ↓]
theorem readMember_self (next : α → Option β) :
    readMember ((name, document) :: rest) name default >>= next = decode document >>= next := by
  unfold readMember
  rw [List.lookup_cons_self]

@[simp ↓]
theorem readMember_other (ne : name ≠ other) (next : α → Option β) :
    readMember ((other, document) :: rest) name default >>= next =
      readMember rest name default >>= next := by
  unfold readMember
  rw [List.lookup_cons, beq_false_of_ne ne]

@[simp ↓]
theorem decode_bind [LawfulCodec α] (a : α) (next : α → Option β) :
    decode (encode a) >>= next = next a := by
  rw [decode_encode, Option.bind_eq_bind, Option.bind_some]

end Codec

end Provision
