namespace TablePlanner

def leastInt64 : Int := -9223372036854775808

def greatestInt64 : Int := 9223372036854775807

def greatestNat64 : Nat := 18446744073709551615

end TablePlanner
