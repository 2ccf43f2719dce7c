namespace AngularAtlas.Text.Utf8

/-- The character that stands for bytes that are not well formed. -/
def replacement : Char := '\ufffd'

/-- Where reading stands between two bytes. In the middle of a character, `code` holds the bits
read so far, `missing` counts the bytes after the next one, and the next byte has to lie between
`low` and `high`. -/
inductive State where
  | start
  | inside (code missing low high : Nat)

def first (b : Nat) : State × List Char :=
  if b < 0x80 then (.start, [Char.ofNat b])
  else if 0xc2 ≤ b ∧ b ≤ 0xdf then (.inside (b - 0xc0) 0 0x80 0xbf, [])
  else if b = 0xe0 then (.inside 0 1 0xa0 0xbf, [])
  else if b = 0xed then (.inside 0xd 1 0x80 0x9f, [])
  else if 0xe1 ≤ b ∧ b ≤ 0xef then (.inside (b - 0xe0) 1 0x80 0xbf, [])
  else if b = 0xf0 then (.inside 0 2 0x90 0xbf, [])
  else if b = 0xf4 then (.inside 4 2 0x80 0x8f, [])
  else if 0xf1 ≤ b ∧ b ≤ 0xf3 then (.inside (b - 0xf0) 2 0x80 0xbf, [])
  else (.start, [replacement])

def next : State → Nat → State × List Char
  | .start, b => first b
  | .inside code missing low high, b =>
    if low ≤ b ∧ b ≤ high then
      let code := code * 64 + (b - 0x80)
      match missing with
      | 0 => (.start, [Char.ofNat code])
      | missing + 1 => (.inside code missing 0x80 0xbf, [])
    else
      let (state, chars) := first b
      (state, replacement :: chars)

def decodeFrom : State → List UInt8 → List Char
  | .start, [] => []
  | .inside .., [] => [replacement]
  | state, b :: r =>
    let (state, chars) := next state b.toNat
    chars ++ decodeFrom state r

def decode (bytes : ByteArray) : String :=
  match String.fromUTF8? bytes with
  | some s => s
  | none => String.ofList (decodeFrom .start bytes.toList)

theorem decode_toUTF8 (s : String) : decode s.toUTF8 = s := by
  simp only [decode, String.toUTF8, String.fromUTF8?, String.fromUTF8]
  simp [s.isValidUTF8]

end AngularAtlas.Text.Utf8
