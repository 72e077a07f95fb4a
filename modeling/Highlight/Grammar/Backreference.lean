/-! References from the closing pattern of a region to the captures of its opening pattern. -/

namespace Highlight

/-- Whether a backslash that is not itself escaped stands before a digit from 1 to 9. A backslash
takes the character after it with it, whatever it is. -/
def hasBackreference : List Char → Bool
  | [] => false
  | '\\' :: c :: rest => ('1' ≤ c && c ≤ '9') || hasBackreference rest
  | _ :: rest => hasBackreference rest

end Highlight
