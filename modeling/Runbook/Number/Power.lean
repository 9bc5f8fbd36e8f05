/-!
This module fixes which powers numbers have: those that are defined by repeated multiplication, also
where a library brings powers of its own.
-/

attribute [instance (1100), default_instance high + 1] instPowNat
