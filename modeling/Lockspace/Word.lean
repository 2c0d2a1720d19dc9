namespace Lockspace

/-- How many words of so many bits there are. -/
def wordCount (bits : Nat) : Nat :=
  1 <<< bits

end Lockspace
