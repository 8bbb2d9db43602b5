import MirrorCast.Program.ParsedMessage

/-! # `Parameters`: the body of a `text/parameters` message -/

namespace MirrorCast.Parameters

open Java

/-- The value in front of the next CRLF, and what is left from there on. Without a CRLF the
last character does not become part of the value. -/
def scanValue : JString → JString × JString
  | [] => ([], [])
  | [c] => ([], [c])
  | c :: d :: data =>
      if c = 0x0d ∧ d = 0x0a then ([], c :: d :: data)
      else
        let (value, rest) := scanValue (d :: data)
        (c :: value, rest)

/-- What follows the line ends right here. -/
def skipLineEnds : JString → JString
  | 0x0d :: 0x0a :: data => skipLineEnds data
  | data => data

theorem length_scanValue_le (data : JString) : (scanValue data).2.length ≤ data.length := by
  fun_induction scanValue data with
  | case1 => exact Nat.le_refl _
  | case2 => exact Nat.le_refl _
  | case3 => exact Nat.le_refl _
  | case4 c d data hends value rest heq ih =>
      rw [heq] at ih
      exact Nat.le_succ_of_le ih

theorem length_skipLineEnds_le (data : JString) : (skipLineEnds data).length ≤ data.length := by
  fun_induction skipLineEnds data with
  | case1 data ih =>
      simp only [List.length_cons]
      omega
  | case2 => exact Nat.le_refl _

/-- The parameters in the order of the body. A name is neither trimmed nor brought to lower
case: `name.trim()` and `name.toLowerCase()` are called for nothing. -/
def internalParse (mDict : List (JString × JString)) (data : JString) :
    Option (List (JString × JString)) :=
  if data = [] then some mDict
  else
    let name := data.takeWhile (· ≠ 0x3a)
    match _hrest : data.dropWhile (· ≠ 0x3a) with
    | [] => none
    | _ :: rest =>
        if name = [] then none
        else
          internalParse (ParsedMessage.put mDict name (trim (scanValue rest).1))
            (skipLineEnds (scanValue rest).2)
termination_by data.length
decreasing_by
  have hdrop := (List.dropWhile_suffix (fun c => decide (c ≠ 0x3a)) (l := data)).length_le
  rw [_hrest, List.length_cons] at hdrop
  have hscan := length_scanValue_le rest
  have hskip := length_skipLineEnds_le (scanValue rest).2
  omega

/-- `Parameters.parse(data)`, where `none` stands for null. -/
def parse (data : JString) : Option (List (JString × JString)) := internalParse [] data

def getParameter [CharData] (params : List (JString × JString)) (name : JString) :
    Option JString :=
  params.lookup (CharData.toLowerCase name)

end MirrorCast.Parameters
