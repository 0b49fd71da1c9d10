import Cm.Mysql.Wire

/-!
# Column definitions: `FieldData.Parse` and `Field.Dump`

`Parse` reads a column definition packet: the catalog (skipped), five length-encoded names,
the `0x0c` length of the fixed part (skipped), charset, column length, type, flag, decimals,
two filler bytes, and, in the answer to a field list command, a length-encoded default value.
It checks the length-encoded names and the default value against the end of the packet, but
not the fixed part.

`Dump` writes a field back, either as the packet it was parsed from or from its fields. The
catalog it writes is the package variable `defCache`, whose value is set outside src/; the
model takes it as an argument.
-/

namespace Cm.Mysql

/-- A column definition and the packet it was parsed from (`data`, nil for a field built by
hand). `defaultValue` is nil unless the packet carried one. -/
structure Field where
  data : Option Bytes := none
  schema : Bytes := []
  table : Bytes := []
  orgTable : Bytes := []
  name : Bytes := []
  orgName : Bytes := []
  charset : UInt16 := 0
  columnLength : UInt32 := 0
  type : UInt8 := 0
  flag : UInt16 := 0
  decimal : UInt8 := 0
  defaultValueLength : UInt64 := 0
  defaultValue : Option Bytes := none
  deriving DecidableEq, Repr

/-- The bytes of a column definition packet. -/
abbrev FieldData := Bytes

/-- `LengthEnodedString(p[pos:])`, as `Parse` reads each name: the string, the number of bytes
it took, and the helper's error. -/
def FieldData.readName (p : FieldData) (pos : Nat) :
    Option (Bytes × Nat × Option MysqlError) := do
  let (s, _, n, err) ← lengthEnodedString (← sliceFrom p pos)
  return (s, n, err)

/-- The end of `Parse`, after the filler: the default value that follows when bytes remain. -/
def FieldData.parseDefaultValue (p : FieldData) (pos : Nat) (f : Field) :
    Option (Field × Option MysqlError) := do
  let f := { f with defaultValue := none }
  if pos < p.length then
    let (length, _, n) ← lengthEncodedInt (← sliceFrom p pos)
    let f := { f with defaultValueLength := length }
    let pos := pos + n
    if p.length < goInt (pos + goInt length.toNat) then
      return (f, some .errMalformPacket)
    let value ← sliceRange p pos (goInt (pos + goInt length.toNat))
    return ({ f with defaultValue := some value }, none)
  else
    return (f, none)

/-- The five names of a column definition, in packet order, each with the field it sets. -/
def nameSetters : List (Field → Bytes → Field) :=
  [fun f s => { f with schema := s }, fun f s => { f with table := s },
    fun f s => { f with orgTable := s }, fun f s => { f with name := s },
    fun f s => { f with orgName := s }]

/-- The names part of `Parse`: `f.X, _, n, err = LengthEnodedString(p[pos:])`, return on an
error, `pos += n`, once per name. -/
def FieldData.readNames (p : FieldData) :
    List (Field → Bytes → Field) → Nat → Field → Option (Except (Field × MysqlError) (Field × Nat))
  | [], pos, f => some (.ok (f, pos))
  | set :: sets, pos, f => do
    let (s, n, err) ← readName p pos
    match err with
    | some e => return .error (set f s, e)
    | none => readNames p sets (pos + n) (set f s)

/-- The fixed part of `Parse`, from the charset on; `pos` is past the `0x0c` length byte. -/
def FieldData.parseFixed (p : FieldData) (pos : Nat) (f : Field) :
    Option (Field × Option MysqlError) := do
  let charset ← littleEndianUint16 (← sliceFrom p pos)
  let columnLength ← littleEndianUint32 (← sliceFrom p (pos + 2))
  let type ← byteAt p (pos + 6)
  let flag ← littleEndianUint16 (← sliceFrom p (pos + 7))
  let decimal ← byteAt p (pos + 9)
  -- then the filler `[0x00][0x00]`
  parseDefaultValue p (pos + 12) { f with charset, columnLength, type, flag, decimal }

/-- `FieldData.Parse`: the field and the error it returns, or `none` where it panics. -/
def FieldData.parse (p : FieldData) : Option (Field × Option MysqlError) := do
  let f : Field := { data := some p }
  -- skip the catalog, always `def`
  let (n, err) ← skipLengthEnodedString p
  match err with
  | some e => return (f, some e)
  | none =>
    match ← readNames p nameSetters n f with
    | .error (f, e) => return (f, some e)
    -- skip the `0x0c` length of the fixed part
    | .ok (f, pos) => parseFixed p (pos + 1) f

/-- The five names as `Dump` writes them, each by `PutLengthEncodedStringWithAlloc`. -/
def Field.names (f : Field) : Bytes :=
  putLengthEncodedStringWithAlloc f.schema ++ putLengthEncodedStringWithAlloc f.table ++
    putLengthEncodedStringWithAlloc f.orgTable ++ putLengthEncodedStringWithAlloc f.name ++
    putLengthEncodedStringWithAlloc f.orgName

/-- The fixed part as `Dump` writes it: `0x0c`, charset, column length, type, flag, decimals
and the filler. -/
def Field.fixedPart (f : Field) : Bytes :=
  [0x0c] ++ uint16ToBytes f.charset ++ uint32ToBytes f.columnLength ++ [f.type] ++
    uint16ToBytes f.flag ++ [f.decimal] ++ [0, 0]

/-- What `Dump` writes when `DefaultValue` is not nil: `Uint64ToBytes(DefaultValueLength)`,
then the value. -/
def Field.defaultPart (f : Field) : Bytes :=
  match f.defaultValue with
  | some value => uint64ToBytes f.defaultValueLength ++ value
  | none => []

/-- `Field.Dump(alloc)`, writing the package variable `defCache` as the catalog. -/
def Field.dump (defCache : Bytes) (f : Field) : Bytes :=
  match f.data with
  | some data => data
  | none => defCache ++ f.names ++ f.fixedPart ++ f.defaultPart

/-! ## Parsing what `Dump` writes -/

/-- Every name of `f` is shorter than `2 ^ 64` bytes, as every Go slice is. -/
def Field.NamesFit (f : Field) : Prop :=
  f.schema.length < 2 ^ 64 ∧ f.table.length < 2 ^ 64 ∧ f.orgTable.length < 2 ^ 64 ∧
    f.name.length < 2 ^ 64 ∧ f.orgName.length < 2 ^ 64

instance (f : Field) : Decidable f.NamesFit := inferInstanceAs (Decidable (_ ∧ _))

@[simp] theorem length_fixedPart (f : Field) : f.fixedPart.length = 13 := by
  simp [Field.fixedPart]

theorem dump_of_data_none (defCache : Bytes) (f : Field) (h : f.data = none) :
    f.dump defCache = defCache ++ (f.names ++ (f.fixedPart ++ f.defaultPart)) := by
  simp [Field.dump, h]

theorem readName_put (a s rest : Bytes) (h : s.length < 2 ^ 64) :
    FieldData.readName (a ++ (putLengthEncodedStringWithAlloc s ++ rest)) a.length =
      some (s, (putLengthEncodedStringWithAlloc s).length, none) := by
  simp [FieldData.readName, sliceFrom, lengthEnodedString_put_append s rest h]

/-- Reading length-encoded strings written back to back sets each field in turn and ends
after the last one. -/
theorem readNames_put (rest : Bytes) (sets : List (Field → Bytes → Field)) :
    ∀ (strs : List Bytes) (a : Bytes) (f : Field), sets.length = strs.length →
      (∀ s ∈ strs, s.length < 2 ^ 64) →
      FieldData.readNames (a ++ (strs.flatMap putLengthEncodedStringWithAlloc ++ rest)) sets
          a.length f =
        some (.ok ((sets.zip strs).foldl (fun g x => x.1 g x.2) f,
          a.length + (strs.flatMap putLengthEncodedStringWithAlloc).length)) := by
  induction sets with
  | nil =>
    intro strs a f hLength _
    cases strs with
    | nil => rfl
    | cons _ _ => simp at hLength
  | cons set sets inductionHypothesis =>
    intro strs a f hLength hFit
    cases strs with
    | nil => simp at hLength
    | cons s strs =>
      have hNext := inductionHypothesis strs (a ++ putLengthEncodedStringWithAlloc s) (set f s)
        (by simpa using hLength) (fun t ht => hFit t (List.mem_cons_of_mem _ ht))
      simp only [List.append_assoc, List.length_append] at hNext
      simp only [List.flatMap_cons, List.append_assoc, FieldData.readNames, Option.bind_eq_bind,
        readName_put a s _ (hFit s (List.mem_cons_self _ _)), Option.some_bind, hNext,
        List.zip_cons_cons, List.foldl_cons, List.length_append, Nat.add_assoc]

theorem names_eq_flatMap (f : Field) :
    f.names = [f.schema, f.table, f.orgTable, f.name, f.orgName].flatMap
      putLengthEncodedStringWithAlloc := by
  simp [Field.names]

theorem readNames_names (a rest : Bytes) (g f : Field) (hg : g.NamesFit) :
    FieldData.readNames (a ++ (g.names ++ rest)) nameSetters a.length f =
      some (.ok ({ f with
        schema := g.schema, table := g.table, orgTable := g.orgTable, name := g.name,
        orgName := g.orgName }, a.length + g.names.length)) := by
  obtain ⟨h₁, h₂, h₃, h₄, h₅⟩ := hg
  have hFit : ∀ s ∈ [g.schema, g.table, g.orgTable, g.name, g.orgName], s.length < 2 ^ 64 := by
    intro s hs
    simp only [List.mem_cons, List.not_mem_nil, or_false] at hs
    rcases hs with rfl | rfl | rfl | rfl | rfl <;> assumption
  rw [names_eq_flatMap, readNames_put rest nameSetters _ a f rfl hFit]
  rfl

theorem parseFixed_fixedPart (a rest : Bytes) (g f : Field) :
    FieldData.parseFixed (a ++ (g.fixedPart ++ rest)) (a.length + 1) f =
      FieldData.parseDefaultValue (a ++ (g.fixedPart ++ rest)) (a.length + 13)
        { f with
          charset := g.charset, columnLength := g.columnLength, type := g.type, flag := g.flag,
          decimal := g.decimal } := by
  simp [FieldData.parseFixed, Field.fixedPart, sliceFrom_append_of_le, byteAt_append_of_le,
    Nat.add_assoc]

theorem parseDefaultValue_of_length_le (p : FieldData) (pos : Nat) (f : Field)
    (h : p.length ≤ pos) :
    FieldData.parseDefaultValue p pos f = some ({ f with defaultValue := none }, none) := by
  simp [FieldData.parseDefaultValue, Nat.not_lt.mpr h]

theorem parse_dump_of_defaultValue_none (catalog : Bytes) (f : Field) (hData : f.data = none)
    (hDefault : f.defaultValue = none) (hCatalog : catalog.length < 2 ^ 64) (hNames : f.NamesFit) :
    FieldData.parse (f.dump (putLengthEncodedStringWithAlloc catalog)) =
      some ({ f with
        data := some (f.dump (putLengthEncodedStringWithAlloc catalog)), defaultValueLength := 0 },
        none) := by
  have hEmpty : f.defaultPart = [] := by simp [Field.defaultPart, hDefault]
  rw [dump_of_data_none _ _ hData, hEmpty]
  have hFixed := parseFixed_fixedPart (putLengthEncodedStringWithAlloc catalog ++ f.names) [] f
  simp only [List.append_assoc, List.length_append] at hFixed
  simp only [FieldData.parse, skipLengthEnodedString_put_append _ _ hCatalog, Option.bind_eq_bind,
    Option.some_bind, readNames_names _ _ _ _ hNames, hFixed]
  rw [parseDefaultValue_of_length_le _ _ _ (by simp; omega)]
  simp [hDefault]

theorem parse_dump_of_defaultValue_none_def :
    FieldData.parse (Field.dump (putLengthEncodedStringWithAlloc [100, 101, 102])
      { schema := [116, 101, 115, 116], name := [105, 100], charset := 63, type := 3 }) =
      some ({
        data := some (Field.dump (putLengthEncodedStringWithAlloc [100, 101, 102])
          { schema := [116, 101, 115, 116], name := [105, 100], charset := 63, type := 3 }),
        schema := [116, 101, 115, 116], name := [105, 100], charset := 63, type := 3 }, none) :=
  parse_dump_of_defaultValue_none _ _ rfl rfl (by decide) (by decide)

/- With a default value, `Dump` writes its length as eight fixed bytes, which `Parse` reads as a
length-encoded integer: the one-byte default `A` comes back as a zero byte. -/
example :
    FieldData.parse (Field.dump (putLengthEncodedStringWithAlloc [100, 101, 102])
      { defaultValueLength := 1, defaultValue := some [65] }) =
      some ({
        data := some (Field.dump (putLengthEncodedStringWithAlloc [100, 101, 102])
          { defaultValueLength := 1, defaultValue := some [65] }),
        defaultValueLength := 1, defaultValue := some [0] }, none) := by
  decide

theorem parse_dump_loses_defaultValueLength :
    (FieldData.parse (Field.dump (putLengthEncodedStringWithAlloc [100, 101, 102])
      { defaultValueLength := 1 })).map (fun r => (r.1.defaultValueLength, r.2)) =
      some (0, none) := by
  decide

/-! ## Packets that end early -/

theorem parseFixed_eq_none (p : FieldData) (pos : Nat) (f : Field) (h : p.length < pos + 10) :
    FieldData.parseFixed p pos f = none := by
  have hDecimal : byteAt p (pos + 9) = none := by simp [byteAt]; omega
  simp [FieldData.parseFixed, hDecimal]

/-- A packet whose names are complete but which ends before the decimals byte makes `Parse`
panic: nothing checks the length of the fixed part. -/
theorem parse_eq_none_of_truncated_fixedPart (catalog : Bytes) (g : Field) (t : Bytes)
    (hCatalog : catalog.length < 2 ^ 64) (hNames : g.NamesFit) (ht : t.length ≤ 10) :
    FieldData.parse (putLengthEncodedStringWithAlloc catalog ++ g.names ++ t) = none := by
  simp only [List.append_assoc, FieldData.parse, skipLengthEnodedString_put_append _ _ hCatalog,
    Option.bind_eq_bind, Option.some_bind, readNames_names _ _ _ _ hNames]
  exact parseFixed_eq_none _ _ _ (by simp; omega)

theorem parse_eq_none_of_empty_names :
    FieldData.parse (putLengthEncodedStringWithAlloc [] ++ ({} : Field).names ++ [0x0c]) = none :=
  parse_eq_none_of_truncated_fixedPart [] {} [0x0c] (by decide) (by decide) (by decide)

theorem parse_six_empty_names_panics : FieldData.parse [0, 0, 0, 0, 0, 0] = none := by
  decide

/-! ## The default value -/

/-- The default-value branch of `Parse`, for every length `L` that `LengthEncodedInt` reads
with `n` bytes at `pos`: the value when it fits, `ErrMalformPacket` when it does not and
`pos + n + L < 2 ^ 63`, and a panic otherwise, where `int(L)` or the sum wraps and the wrapped
bound passes the check. -/
theorem parseDefaultValue_eq (p : FieldData) (pos n : Nat) (f : Field) (length : UInt64)
    (isNull : Bool) (hp : p.length < 2 ^ 63) (hpos : pos < p.length)
    (hInt : lengthEncodedInt (p.drop pos) = some (length, isNull, n)) :
    FieldData.parseDefaultValue p pos f =
      if pos + n + length.toNat ≤ p.length then
        some ({ f with
          defaultValueLength := length,
          defaultValue := some ((p.drop (pos + n)).take length.toNat) }, none)
      else if pos + n + length.toNat < 2 ^ 63 then
        some ({ f with defaultValueLength := length, defaultValue := none }, some .errMalformPacket)
      else none := by
  have hn := lengthEncodedInt_length hInt
  simp only [List.length_drop] at hn
  have hL : length.toNat < 2 ^ 64 := length.toNat_lt_size
  rw [FieldData.parseDefaultValue, if_pos hpos]
  simp only [sliceFrom, if_pos (le_of_lt hpos), Option.bind_eq_bind, Option.some_bind]
  rw [hInt, Option.some_bind]
  dsimp only
  rw [goInt_add_goInt (by omega) hL]
  simp only [Int.natCast_add, Option.pure_def, Option.some_bind]
  by_cases hFits : pos + n + length.toNat ≤ p.length
  · have hSmall : pos + n + length.toNat < 2 ^ 63 := by omega
    have hCheck : ¬ (p.length : Int) < pos + n + length.toNat := by omega
    have hBounds : (pos : Int) + n ≤ pos + n + length.toNat ∧
        (pos : Int) + n + length.toNat ≤ p.length := by omega
    have hTake : ((pos : Int) + n + length.toNat).toNat - (pos + n) = length.toNat := by omega
    simp only [hSmall, hFits, hCheck, if_true, if_false, sliceRange, Int.natCast_add, hBounds,
      hTake, and_self, Option.some_bind]
  · by_cases hSmall : pos + n + length.toNat < 2 ^ 63
    · have hCheck : (p.length : Int) < pos + n + length.toNat := by omega
      simp only [hSmall, hFits, hCheck, if_true, if_false]
    · have hCheck : ¬ (p.length : Int) < pos + n + length.toNat - 2 ^ 64 := by omega
      have hBounds : ¬ ((pos : Int) + n ≤ pos + n + length.toNat - 2 ^ 64 ∧
          (pos : Int) + n + length.toNat - 2 ^ 64 ≤ p.length) := by omega
      simp only [hSmall, hFits, hCheck, if_false, sliceRange, Int.natCast_add, hBounds,
        Option.none_bind]

theorem parseDefaultValue_one_byte :
    FieldData.parseDefaultValue [1, 65] 0 {} =
      if 0 + 1 + (1 : UInt64).toNat ≤ [1, 65].length then
        some ({ ({} : Field) with
          defaultValueLength := 1,
          defaultValue := some (([1, 65].drop (0 + 1)).take (1 : UInt64).toNat) }, none)
      else if 0 + 1 + (1 : UInt64).toNat < 2 ^ 63 then
        some ({ ({} : Field) with defaultValueLength := 1, defaultValue := none },
          some .errMalformPacket)
      else none :=
  parseDefaultValue_eq [1, 65] 0 1 {} 1 false (by decide) (by decide) (by decide)

/-- A field list answer of six empty names, a zero fixed part and a default value whose
`0xfe` length prefix reads `2 ^ 63`: `int(L)` is negative, the check passes and the slice
panics. -/
theorem parse_default_length_two_pow_63_panics :
    lengthEncodedInt [0xfe, 0, 0, 0, 0, 0, 0, 0, 0x80] = some (UInt64.ofNat (2 ^ 63), false, 9) ∧
      FieldData.parse ([0, 0, 0, 0, 0, 0, 0x0c] ++ List.replicate 12 0 ++
        [0xfe, 0, 0, 0, 0, 0, 0, 0, 0x80]) = none := by
  decide

end Cm.Mysql
