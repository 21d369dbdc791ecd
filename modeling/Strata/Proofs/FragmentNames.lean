import Strata.Proofs.ListedNames

/-!
# Names of fragment files

The name of a fragment file ends in the number of its shard and in the kind of
it.  There is no dash behind the one before the number, so the last dash of the
name parts what the file is called from what the coder put behind it, however
many dashes or endings the name has itself.  The kinds differ in their last
letter, and zeros before a number leave its value.  Hence a stored name tells
the name and the device, and the first device lists just its own shards.
-/

namespace Strata

namespace ErasureCoder

variable {coder : ErasureCoder}

/-! ## Numbers of shards -/

theorem ofDigitChars_fiveDigits
    (number : Nat) :
    Nat.ofDigitChars 10 (fiveDigits number).toList 0 = number := by
  rw [fiveDigits, String.toList_ofList, Nat.ofDigitChars_append,
    Nat.ofDigitChars_replicate_zero, Nat.mul_zero,
    Nat.ofDigitChars_ten_toDigits]

/-- The last dash is the one before the number. -/
theorem eq_of_dash_fiveDigits
    {front other : List Char}
    {first second : Nat}
    (same : front ++ '-' :: (fiveDigits first).toList =
      other ++ '-' :: (fiveDigits second).toList) :
    front = other ∧ first = second := by
  have dashless (number : Nat) : '-' ∉ (fiveDigits number).toList :=
    fun member => absurd (isDigit_of_mem_fiveDigits member) (by decide)
  have pieces := congrArg (Text.pieces '-') same
  rw [Text.pieces_append, Text.pieces_append,
    Text.pieces_of_not_mem (dashless first),
    Text.pieces_of_not_mem (dashless second)] at pieces
  have length {left right : List Char} : [left].length = [right].length := rfl
  have digits := List.singleton_inj.mp (List.append_inj' pieces length).2
  rw [digits] at same
  refine ⟨List.append_cancel_right same, ?_⟩
  rw [← ofDigitChars_fiveDigits first, digits, ofDigitChars_fiveDigits]

/-! ## Endings -/

/-- The number of a shard among those of its kind. -/
def shardNumber
    (coder : ErasureCoder)
    (device : Nat) :
    Nat :=
  if device < coder.code.data then device else device - coder.code.data

/-- What the kind of a shard is called. -/
def shardKind
    (coder : ErasureCoder)
    (device : Nat) :
    String :=
  if device < coder.code.data then ".data" else ".parity"

theorem toList_suffix
    (coder : ErasureCoder)
    (device : Nat) :
    (coder.suffix device).toList =
      '-' :: (fiveDigits (coder.shardNumber device)).toList ++
        (coder.shardKind device).toList := by
  unfold suffix shardNumber shardKind
  split <;> simp

theorem getLast?_append_shardKind
    (coder : ErasureCoder)
    (front : List Char)
    (device : Nat) :
    (front ++ (coder.shardKind device).toList).getLast? =
      some (if device < coder.code.data then 'a' else 'y') := by
  unfold shardKind
  split <;> simp

/-- A kind is told by its last letter. -/
theorem lt_data_iff_of_append_shardKind
    {front other : List Char}
    {first second : Nat}
    (same : front ++ (coder.shardKind first).toList =
      other ++ (coder.shardKind second).toList) :
    first < coder.code.data ↔ second < coder.code.data := by
  have last := congrArg List.getLast? same
  rw [getLast?_append_shardKind, getLast?_append_shardKind,
    Option.some.injEq] at last
  by_cases data : second < coder.code.data
  · rw [if_pos data] at last
    refine iff_of_true (by_contra fun parity => ?_) data
    rw [if_neg parity] at last
    exact absurd last (by decide)
  · rw [if_neg data] at last
    refine iff_of_false (fun alike => ?_) data
    rw [if_pos alike] at last
    exact absurd last (by decide)

/-- A stored name tells the name and the device. -/
theorem eq_of_append_suffix
    {name other : String}
    {first second : Nat}
    (same : name ++ coder.suffix first = other ++ coder.suffix second) :
    name = other ∧ first = second := by
  rw [← String.toList_inj, String.toList_append, String.toList_append,
    toList_suffix, toList_suffix, ← List.append_assoc,
    ← List.append_assoc] at same
  have kinds := lt_data_iff_of_append_shardKind same
  have alike : coder.shardKind first = coder.shardKind second := by
    simp only [shardKind, kinds]
  rw [alike] at same
  rcases eq_of_dash_fiveDigits (List.append_cancel_right same) with
    ⟨names, numbers⟩
  refine ⟨String.toList_inj.mp names, ?_⟩
  unfold shardNumber at numbers
  by_cases data : first < coder.code.data
  · rwa [if_pos data, if_pos (kinds.mp data)] at numbers
  · rw [if_neg data, if_neg (mt kinds.mpr data)] at numbers
    omega

end ErasureCoder

/-- A path that is not the root is that of a name in a directory. -/
theorem Path.exists_child
    {path : Path}
    (notRoot : path.isRoot = false) :
    ∃ (directory : Path) (name : String), path = directory.child name := by
  rcases path with ⟨names⟩
  rcases List.eq_nil_or_concat' names with rfl | ⟨front, name, rfl⟩
  · cases notRoot
  · exact ⟨⟨front⟩, name, rfl⟩

theorem Path.child_inj
    {directory other : Path}
    {name named : String} :
    directory.child name = other.child named ↔
      directory = other ∧ name = named := by
  rcases directory with ⟨front⟩
  rcases other with ⟨others⟩
  simp [child]

theorem Path.name?_child
    (directory : Path)
    (name : String) :
    (directory.child name).name? = some name :=
  List.getLast?_concat

namespace Coder

variable {coder : ErasureCoder}

/-- Whatever two paths are called, their files on two devices are different
ones unless path and device are the same. -/
theorem devicePath_child_inj
    {directory elsewhere : Path}
    {name named : String}
    {first second : Nat} :
    devicePath (.erasure coder) (directory.child name) first =
        devicePath (.erasure coder) (elsewhere.child named) second ↔
      directory.child name = elsewhere.child named ∧ first = second := by
  constructor
  · intro same
    rw [devicePath_child, devicePath_child, Path.child_inj] at same
    rcases ErasureCoder.eq_of_append_suffix same.2 with ⟨names, devices⟩
    exact ⟨Path.child_inj.mpr ⟨same.1, names⟩, devices⟩
  · rintro ⟨paths, rfl⟩
    rw [paths]

/-- The first device lists a file under its name, and no other shard is
listed. -/
theorem listedName?_append_suffix
    (name : String)
    (device : Nat) :
    listedName? (.erasure coder) (name ++ coder.suffix device) false =
      if device = 0 then some name else none := by
  split
  · rename_i first
    subst first
    exact (listedName?_eq_some_iff _).mpr rfl
  · rename_i later
    rw [Option.eq_none_iff_forall_ne_some]
    intro other listed
    have stored := (listedName?_eq_some_iff _).mp listed
    exact later (ErasureCoder.eq_of_append_suffix stored).2

/--
Under an erasure coder of any numbers of shards, whatever the names of two
paths are: their fragment files on two devices have one path only if they are
one path on one device, and of the names of the fragment files of a path the
one on the first device is listed as the name of the path, and the others are
not listed.
-/
theorem devicePath_injective_listed
    (coder : ErasureCoder)
    {path other : Path}
    (notRoot : path.isRoot = false)
    (otherNotRoot : other.isRoot = false) :
    (∀ first second,
      devicePath (.erasure coder) path first =
          devicePath (.erasure coder) other second →
        path = other ∧ first = second) ∧
    ∃ name, path.name? = some name ∧
      ∀ device, ∃ stored,
        (devicePath (.erasure coder) path device).name? = some stored ∧
          listedName? (.erasure coder) stored false =
            if device = 0 then some name else none := by
  rcases Path.exists_child notRoot with ⟨directory, name, rfl⟩
  rcases Path.exists_child otherNotRoot with ⟨elsewhere, named, rfl⟩
  refine ⟨fun first second same => devicePath_child_inj.mp same,
    name, Path.name?_child directory name, fun device => ?_⟩
  refine ⟨name ++ coder.suffix device, ?_, listedName?_append_suffix name device⟩
  rw [devicePath_child]
  exact Path.name?_child directory _

/-- Two of the files have a name that ends like one of a shard. -/
theorem devicePath_injective_listed_of_shard_names :
    let coder : ErasureCoder := ⟨⟨2, 1, []⟩, {}, []⟩
    let path : Path := ⟨["a", "f-00001.data"]⟩
    let other : Path := ⟨["a", "f-00000.parity"]⟩
    devicePath (.erasure coder) path 0 ≠ devicePath (.erasure coder) other 1 ∧
      (devicePath (.erasure coder) path 2).name? =
        some "f-00001.data-00000.parity" ∧
      listedName? (.erasure coder) "f-00001.data-00000.data" false =
        some "f-00001.data" ∧
      listedName? (.erasure coder) "f-00001.data-00000.parity" false = none := by
  intro coder path other
  have notRoot : path.isRoot = false := rfl
  have otherNotRoot : other.isRoot = false := rfl
  rcases devicePath_injective_listed coder notRoot otherNotRoot with
    ⟨apart, name, named, stored⟩
  have data : (devicePath (.erasure coder) path 0).name? =
      some "f-00001.data-00000.data" := by decide +kernel
  have parity : (devicePath (.erasure coder) path 2).name? =
      some "f-00001.data-00000.parity" := by decide +kernel
  rcases stored 0 with ⟨first, isFirst, listed⟩
  rcases stored 2 with ⟨third, isThird, hidden⟩
  obtain rfl := Option.some.inj named
  obtain rfl := Option.some.inj (data.symm.trans isFirst)
  obtain rfl := Option.some.inj (parity.symm.trans isThird)
  exact ⟨fun same => absurd (apart 0 1 same).2 (by decide), parity, listed,
    hidden⟩

end Coder

end Strata
