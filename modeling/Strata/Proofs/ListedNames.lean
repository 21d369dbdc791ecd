import Strata.Proofs.NameCalls
import Strata.Proofs.NameRequests

/-!
# Listed names

The device stage gives directories and links their own names on the devices,
and files the names that the coder makes of them.  What is listed under a name
is what is found under it, and no name is listed twice, exactly if no file is
stored where the file of the name of a directory would be, and the host takes
the place of that file.
-/

namespace Strata

/-! ## Names with endings -/

namespace Coder

/-- What the name of a file ends in on a device. -/
def ending
    (coder : Coder)
    (device : Nat) :
    String :=
  match coder with
  | .erasure coder => coder.suffix device
  | _ => ""

theorem devicePath_child
    (coder : Coder)
    (path : Path)
    (name : String)
    (device : Nat) :
    coder.devicePath (path.child name) device =
      path.child (name ++ coder.ending device) := by
  cases coder with
  | erasure coder => exact Path.withSuffix_child path name _
  | replicate => simp [devicePath, ending]
  | xor => simp [devicePath, ending]

end Coder

theorem ErasureCoder.beforeEnd?_eq_some_iff
    {text ending front : String} :
    ErasureCoder.beforeEnd? text ending = some front ↔
      text = front ++ ending := by
  unfold beforeEnd?
  constructor
  · intro found
    split at found
    · rename_i ends
      rcases List.isSuffixOf_iff_suffix.mp ends with ⟨before, whole⟩
      rw [← String.toList_inj, String.toList_append, ← Option.some.inj found,
        String.toList_ofList, ← whole]
      simp
    · cases found
  · rintro rfl
    rw [if_pos]
    · simp
    · rw [List.isSuffixOf_iff_suffix, String.toList_append]
      exact List.suffix_append ..

theorem ErasureCoder.isDigit_of_mem_fiveDigits
    {number : Nat}
    {character : Char}
    (member : character ∈ (fiveDigits number).toList) :
    character.isDigit = true := by
  rw [fiveDigits, String.toList_ofList, List.mem_append] at member
  rcases member with zero | digit
  · rw [List.eq_of_mem_replicate zero]
    rfl
  · exact Nat.isDigit_of_mem_toDigits (by decide) (by decide) digit

namespace Coder

/-- A directory is listed under its own name, and a file under what comes
before the ending. -/
theorem listedName?_eq_some_iff
    (coder : Coder)
    {stored name : String}
    {isDirectory : Bool} :
    coder.listedName? stored isDirectory = some name ↔
      stored = if isDirectory then name else name ++ coder.ending 0 := by
  cases coder with
  | erasure coder =>
      cases isDirectory
      · exact ErasureCoder.beforeEnd?_eq_some_iff
      · simp [listedName?]
  | replicate => simp [listedName?, ending]
  | xor => simp [listedName?, ending]

theorem ending_of_plain
    {coder : Coder}
    (plain : coder.mode ≠ .erasure)
    {device : Nat} :
    coder.ending device = "" := by
  cases coder with
  | erasure => exact absurd rfl plain
  | replicate => rfl
  | xor => rfl

theorem slash_not_mem_ending
    (coder : Coder)
    (device : Nat) :
    '/' ∉ (coder.ending device).toList := by
  have digits (number : Nat) :
      '/' ∉ (ErasureCoder.fiveDigits number).toList := fun member =>
    absurd (ErasureCoder.isDigit_of_mem_fiveDigits member) (by decide)
  cases coder with
  | erasure coder =>
      unfold ending ErasureCoder.suffix
      dsimp only
      split <;> simp [digits]
  | replicate => simp [ending]
  | xor => simp [ending]

/-- Where files have names of their own, an ending is longer than the names of
dots. -/
theorem ending_long_of_erasure
    {coder : Coder}
    (books : coder.mode = .erasure)
    (device : Nat) :
    2 < (coder.ending device).length := by
  cases coder with
  | erasure coder =>
      unfold ending ErasureCoder.suffix
      dsimp only
      split <;>
        · simp only [String.length_append]
          have first : "-".length = 1 := rfl
          have data : ".data".length = 5 := rfl
          have parity : ".parity".length = 7 := rfl
          omega
  | replicate => cases books
  | xor => cases books

/-- What a name is stored under is a name as well. -/
theorem isName_ending
    {name : String}
    (named : Path.IsName name)
    (coder : Coder)
    (device : Nat) :
    Path.IsName (name ++ coder.ending device) := by
  rcases named with ⟨nonempty, slashless, dot, dots⟩
  refine ⟨?_, ?_, ?_⟩
  · simp [String.append_eq_empty_iff, nonempty]
  · rw [String.toList_append, List.mem_append]
    exact fun member =>
      member.elim slashless (coder.slash_not_mem_ending device)
  · by_cases books : coder.mode = .erasure
    · have long := ending_long_of_erasure books device
      have length : 2 < (name ++ coder.ending device).length := by
        rw [String.length_append]
        omega
      refine ⟨?_, ?_⟩ <;>
        · intro same
          rw [same] at length
          exact absurd length (by decide)
    · rw [ending_of_plain books, String.append_empty]
      exact ⟨dot, dots⟩

end Coder

/-! ## Listings -/

namespace Host

variable
  {host after : Host}
  {place : String}
  {id : NodeId}
  {entries : List Entry}

/-- What is listed of an entry of a directory. -/
def entryOf
    (host : Host)
    (stored : String × NodeId) :
    Entry where
  name := stored.1
  kind := (host.node stored.2).body.kind

theorem entries_of_body
    {table : Table String NodeId}
    (body : (host.node id).body = .directory table) :
    host.entries id = table := by
  rw [Host.entries, body]

/-- A directory is listed as it is, in some order. -/
theorem listing_of_directory
    (resolved : host.resolve place true = .ok id)
    (directory : host.isDirectory id) :
    ∃ entries, (listing place).execute host = (.ok entries, host) ∧
      entries.Perm ((host.entries id).map host.entryOf) := by
  rcases isDirectory_iff.mp directory with ⟨table, body⟩
  refine ⟨((host.entries id).map host.entryOf).mergeSort
    fun left right => decide (left.name ≤ right.name), ?_,
      List.mergeSort_perm _ _⟩
  rw [listing, HostAction.execute_ask, resolved, entries_of_body body]
  simp only [bind, Except.bind, body]
  rfl

theorem directory_of_listing
    (listed : (listing place).execute host = (.ok entries, after)) :
    after = host ∧ ∃ id, host.resolve place true = .ok id ∧
      host.isDirectory id ∧
        entries.Perm ((host.entries id).map host.entryOf) := by
  rw [listing, HostAction.execute_ask] at listed
  rcases Prod.mk.inj listed with ⟨answered, rfl⟩
  refine ⟨rfl, ?_⟩
  cases resolved : host.resolve place true with
  | error error =>
      rw [resolved] at answered
      cases answered
  | ok id =>
      rw [resolved] at answered
      simp only [bind, Except.bind] at answered
      split at answered
      · rename_i table body
        cases answered
        refine ⟨id, rfl, isDirectory_iff.mpr ⟨table, body⟩, ?_⟩
        rw [entries_of_body body]
        exact List.mergeSort_perm _ _
      · cases answered

theorem perform_list
    (place : String)
    (host : Host) :
    backend.perform (.list place) host =
      (some (((listing place).execute host).1.map .listing),
        ((listing place).execute host).2) := by
  rw [perform_eq, serve, HostAction.execute_bind]
  rcases (listing place).execute host with ⟨_ | _, _⟩ <;> rfl

end Host

namespace Devices

variable
  {root : String}
  {others : List String}
  {fleet after : Fleet Host}
  {path : Path}
  {handle : DirectoryHandle}

/-- Listings move no bytes of files. -/
theorem still_of_lists
    (places : List String) :
    (places.map DeviceRequest.list).any (·.isTransfer) = false := by
  simp [DeviceRequest.isTransfer]

/-- An open directory has what the first device lists. -/
theorem listing_of_openDirectory
    (opened : (Devices.openDirectory ⟨Host.backend, root :: others⟩
      path).execute fleet = (.ok handle, after)) :
    after.coder = fleet.coder ∧
      ∃ left, (Host.listing (resolve root path)).execute fleet.host =
        (.ok handle.primary, left) := by
  rcases Action.execute_bind_eq_ok opened with ⟨outcomes, reached, ran, ends⟩
  cases ends
  rcases (fanOut_eq_ok_iff (still_of_lists _)).mp ran with ⟨coder, served⟩
  refine ⟨coder, ?_⟩
  cases served with
  | @next _ _ outcome outcomes _ middle final done rest =>
      rw [Host.perform_list] at done
      rcases Prod.mk.inj done with ⟨reported, -⟩
      rcases listed : (Host.listing (resolve root path)).execute fleet.host
        with ⟨_ | entries, left⟩
      · rw [listed] at reported
        cases reported
      · rw [listed] at reported
        cases reported
        exact ⟨left, rfl⟩

/-- Where a path leads to a directory on every device, it can be opened, and
the first device has it as it is. -/
theorem openDirectory_answers
    {id : NodeId}
    (first : fleet.host.resolve (resolve root path) true = .ok id)
    (there : ∀ device ∈ root :: others, ∃ id,
      fleet.host.resolve (resolve device path) true = .ok id ∧
        fleet.host.isDirectory id) :
    ∃ handle,
      (Devices.openDirectory ⟨Host.backend, root :: others⟩ path).Answers
          fleet handle (fun left => left = fleet) ∧
        handle.primary.Perm
          ((fleet.host.entries id).map fleet.host.entryOf) := by
  have served (roots : List String)
      (there : ∀ root ∈ roots, ∃ id,
        fleet.host.resolve (resolve root path) true = .ok id ∧
          fleet.host.isDirectory id) :
      ∃ outcomes, Fanout.Served Host.backend
        ((roots.map fun root => resolve root path).map .list) outcomes
        fleet.host fleet.host := by
    induction roots with
    | nil => exact ⟨[], .nothing _⟩
    | cons root rest ih =>
        rcases ih fun other member =>
          there other (List.mem_cons_of_mem _ member) with ⟨outcomes, later⟩
        rcases there root List.mem_cons_self with ⟨id, resolved, directory⟩
        rcases Host.listing_of_directory resolved directory with
          ⟨entries, listed, -⟩
        refine ⟨.listing entries :: outcomes, .next ?_ later⟩
        rw [Host.perform_list, listed]
        rfl
  rcases served (root :: others) there with ⟨outcomes, served⟩
  have opened : (Devices.openDirectory ⟨Host.backend, root :: others⟩
      path).Answers fleet ⟨outcomes.map (·.entries)⟩
        (fun left => left = fleet) :=
    (fanOut_answers (still_of_lists _) served).bind fun _ held => .pure held
  refine ⟨_, opened, ?_⟩
  rcases opened with ⟨left, opened, -⟩
  rcases listing_of_openDirectory opened with ⟨-, left, listed⟩
  rcases Host.directory_of_listing listed with ⟨-, found, resolved, -, same⟩
  rw [first] at resolved
  cases resolved
  exact same

end Devices

/-! ## Places of listed names -/

/-- Whether the host takes the place of a path below a root: it does not
refuse the place, and the last name is not too long. -/
def Devices.Fits
    (root : String)
    (path : Path) :
    Prop :=
  Host.pathFault? (Devices.resolve root path) = none ∧
    ∀ name ∈ path.name?, name.utf8ByteSize ≤ Host.nameLimit

theorem Devices.fits_child_iff
    {root : String}
    {path : Path}
    {name : String} :
    Devices.Fits root (path.child name) ↔
      Host.pathFault? (Devices.resolve root (path.child name)) = none ∧
        name.utf8ByteSize ≤ Host.nameLimit := by
  simp [Devices.Fits, Path.name?, Path.child]

section Child

variable
  {host : Host}
  {root name ending : String}
  {path : Path}
  {id : NodeId}
  (absolute : Host.isAbsolute root)
  (proper : path.Proper)
  (named : Path.IsName name)

include absolute proper named

/-- What fits with an ending fits without. -/
theorem Devices.Fits.of_ending
    (longer : Path.IsName (name ++ ending))
    (fits : Devices.Fits root (path.child (name ++ ending))) :
    Devices.Fits root (path.child name) := by
  rcases Devices.fits_child_iff.mp fits with ⟨taken, short⟩
  rw [Host.place_child_append absolute (proper.child named)
    (proper.child longer)] at taken
  rw [String.utf8ByteSize_append] at short
  exact Devices.fits_child_iff.mpr ⟨Host.pathFault?_of_append
    (Host.place_ne_empty absolute _) taken,
      Nat.le_of_add_right_le short⟩

variable
  (resolved : host.resolve (Devices.resolve root path) true = .ok id)
  (directory : host.isDirectory id)

include resolved directory

/-- What the host knows about a name in a directory is what it knows about the
object of that name. -/
theorem Host.attributes_of_fits
    (fits : Devices.Fits root (path.child name)) :
    Host.backend.attributes (Devices.resolve root (path.child name)) host =
      match (host.entries id).find? name with
      | some child => .ok (host.node child).attributes
      | none => .error .notFound := by
  rcases Devices.fits_child_iff.mp fits with ⟨taken, short⟩
  rcases Host.exists_seeks_child absolute (proper.child named) resolved
      directory taken named.2.2 short with ⟨way, rfl, seeks⟩
  change (host.resolve _ false).map _ = _
  rw [seeks.resolve (Host.endsInSlash_place absolute (proper.child named))]
  cases (host.entries (Host.here way)).find? name <;> rfl

/-- A place that does not fit is refused, and not for being free. -/
theorem Host.attributes_of_not_fits
    (strange : ¬ Devices.Fits root (path.child name)) :
    ∃ error, error ≠ HostError.notFound ∧
      Host.backend.attributes (Devices.resolve root (path.child name)) host =
        .error error := by
  change ∃ error, _ ∧ (host.resolve _ false).map _ = _
  cases taken : Host.pathFault? (Devices.resolve root (path.child name)) with
  | some fault =>
      refine ⟨fault, ?_, ?_⟩
      · rintro rfl
        exact Host.pathFault?_ne_notFound
          (Host.place_ne_empty absolute _) taken
      · unfold Host.resolve Host.locate
        rw [taken]
        rfl
  | none =>
      have long : Host.nameLimit < name.utf8ByteSize := by
        refine Nat.lt_of_not_le fun short => strange ?_
        exact Devices.fits_child_iff.mpr ⟨taken, short⟩
      refine ⟨.nameTooLong, nofun, ?_⟩
      rw [Host.resolve_child_of_long absolute (proper.child named) resolved
        directory taken named.2.2 long]
      rfl

end Child

/-! ## What is reported -/

namespace Devices

variable
  {root : String}
  {others : List String}
  {fleet : Fleet Host}
  {path : Path}
  {kind : Kind}

/-- What the first device knows about a path. -/
def known
    (root : String)
    (path : Path)
    (fleet : Fleet Host) :
    Except HostError Attributes :=
  match Host.backend.attributes
      (resolve root (fleet.coder.devicePath path 0)) fleet.host with
  | .ok attributes => .ok attributes
  | .error error =>
    if error = .notFound ∧ fleet.coder.mode = .erasure then
      Host.backend.attributes (resolve root path) fleet.host
    else
      .error error

theorem execute_primaryAttributes
    (root : String)
    (others : List String)
    (path : Path)
    (fleet : Fleet Host) :
    (primaryAttributes ⟨Host.backend, root :: others⟩ path).execute fleet =
      ((known root path fleet).mapError .host, fleet) := by
  simp only [primaryAttributes, primary, Action.execute_bind,
    Action.execute_ofExcept, Fleet.askCoder, Fleet.askHost,
    Action.execute_ofRun]
  rfl

/-- What is known about a path that is not open is what the first device knows,
with the size that the coder keeps of a file. -/
theorem attributes_eq_bind
    {κ : Type}
    (devices : Devices κ)
    (path : Path) :
    devices.attributes path none =
      (devices.primaryAttributes path >>= fun found =>
        if found.isFile then do
          let tracked ← Fleet.askCoder fun coder =>
            .ok (coder.trackedSize? path)
          return { found with size := tracked.getD found.size }
        else
          return found) :=
  rfl

/-- The kind that is reported for a path. -/
theorem attributes_kind_iff :
    (∃ found, ((attributes ⟨Host.backend, root :: others⟩ path
        none).execute fleet).1 = .ok found ∧ found.kind = kind) ↔
      ∃ found, known root path fleet = .ok found ∧ found.kind = kind := by
  rw [attributes_eq_bind, Action.execute_bind, execute_primaryAttributes]
  cases known root path fleet with
  | error error => simp [Except.mapError]
  | ok attributes =>
      simp only [Except.mapError, Except.ok.injEq, exists_eq_left']
      split
      · rw [Action.execute_bind, Fleet.askCoder, Action.execute_ofRun]
        simp
      · simp

end Devices

/-! ## One name, one object -/

/-- The name that an entry has on the first device. -/
def Coder.storedName
    (coder : Coder)
    (entry : Entry) :
    String :=
  if entry.kind = .directory then
    entry.name
  else
    entry.name ++ coder.ending 0

/--
An entry of a directory is told from every other one: its name can be one, the
host takes the place of the file that would have the name, and if the entry is
a directory, nothing but a directory is at that place.
-/
structure Fleet.TellsApart
    (root : String)
    (directory : Path)
    (fleet : Fleet Host)
    (entry : Entry) :
    Prop where
  named : Path.IsName entry.name
  fits : Devices.Fits root
    (fleet.coder.devicePath (directory.child entry.name) 0)
  alone : entry.kind = .directory → ∀ found,
    Host.backend.attributes
        (Devices.resolve root
          (fleet.coder.devicePath (directory.child entry.name) 0))
        fleet.host = .ok found →
      found.kind = .directory

section Directory

variable
  {fleet : Fleet Host}
  {root : String}
  {directory : Path}
  {id : NodeId}
  {entry : Entry}
  {child : NodeId}
  (tidy : fleet.host.Tidy)
  (absolute : Host.isAbsolute root)
  (proper : directory.Proper)
  (resolved : fleet.host.resolve (Devices.resolve root directory) true =
    .ok id)
  (isDirectory : fleet.host.isDirectory id)
  (held : (fleet.coder.storedName entry, child) ∈ fleet.host.entries id)
  (kind : (fleet.host.node child).body.kind = entry.kind)

include tidy absolute proper resolved isDirectory held kind

/-- What is known about a listed name is of the kind that is listed exactly if
the entry is told from every other one. -/
theorem known_kind_iff
    (named : Path.IsName entry.name) :
    (∃ found, Devices.known root (directory.child entry.name) fleet =
        .ok found ∧ found.kind = entry.kind) ↔
      fleet.TellsApart root directory entry := by
  have longer := Coder.isName_ending named fleet.coder 0
  have found := (tidy.entries id).1.find?_of_mem held
  unfold Devices.known
  by_cases fits : Devices.Fits root
      (fleet.coder.devicePath (directory.child entry.name) 0)
  · have asked := fits
    rw [Coder.devicePath_child] at asked
    have known := Host.attributes_of_fits absolute proper longer resolved
      isDirectory asked
    rw [← Coder.devicePath_child] at known
    rw [known]
    by_cases folder : entry.kind = .directory
    · rw [Coder.storedName, if_pos folder] at found
      cases file : (fleet.host.entries id).find?
          (entry.name ++ fleet.coder.ending 0) with
      | some other =>
          rw [file] at known
          simp only [Except.ok.injEq, exists_eq_left']
          constructor
          · intro same
            refine ⟨named, fits, fun _ found asked => ?_⟩
            rw [known] at asked
            rw [← Except.ok.inj asked, same, folder]
          · intro apart
            rw [apart.alone folder _ known, folder]
      | none =>
          rw [file] at known
          have books : fleet.coder.mode = .erasure := by
            by_contra plain
            rw [Coder.ending_of_plain plain, String.append_empty, found]
              at file
            cases file
          have bare := Host.attributes_of_fits absolute proper named resolved
            isDirectory (asked.of_ending absolute proper named longer)
          rw [found] at bare
          simp only [books, and_self, if_true, bare, Except.ok.injEq,
            exists_eq_left']
          refine ⟨fun _ => ⟨named, fits, fun _ found asked => ?_⟩,
            fun _ => kind⟩
          rw [known] at asked
          cases asked
    · rw [Coder.storedName, if_neg folder] at found
      rw [found] at known ⊢
      refine ⟨fun _ => ⟨named, fits, fun same => absurd same folder⟩,
        fun _ => ⟨_, rfl, kind⟩⟩
  · have strange := fits
    rw [Coder.devicePath_child] at strange
    rcases Host.attributes_of_not_fits absolute proper longer resolved
      isDirectory strange with ⟨error, other, refused⟩
    rw [Coder.devicePath_child, refused]
    simp only [other, false_and, if_false, reduceCtorEq, false_and,
      exists_false, false_iff]
    exact fun apart => fits apart.fits

end Directory

/-- The entries of a directory as they are listed, from those that the first
device has. -/
def Coder.listed
    (coder : Coder)
    (stored : List Entry) :
    List Entry :=
  stored.filterMap fun entry =>
    (coder.listedName? entry.name (entry.kind == .directory)).map
      fun name => { entry with name }

section Listed

variable
  {fleet : Fleet Host}
  {root : String}
  {directory : Path}
  {id : NodeId}
  {stored : List Entry}
  (same : stored.Perm
    ((fleet.host.entries id).map fleet.host.entryOf))

include same

/-- What is listed are the entries of the directory that have a name. -/
theorem mem_listed_iff
    {entry : Entry} :
    entry ∈ fleet.coder.listed stored ↔
      ∃ child, (fleet.coder.storedName entry, child) ∈
          fleet.host.entries id ∧
        (fleet.host.node child).body.kind = entry.kind := by
  have among (found : Entry) : found ∈ stored ↔
      ∃ child, (found.name, child) ∈ fleet.host.entries id ∧
        (fleet.host.node child).body.kind = found.kind := by
    rw [same.mem_iff, List.mem_map]
    constructor
    · rintro ⟨⟨name, child⟩, held, rfl⟩
      exact ⟨child, held, rfl⟩
    · rintro ⟨child, held, kind⟩
      exact ⟨(found.name, child), held, by rw [Host.entryOf, kind]⟩
  rw [Coder.listed, List.mem_filterMap]
  constructor
  · rintro ⟨found, member, listed⟩
    rcases Option.map_eq_some_iff.mp listed with ⟨name, known, rfl⟩
    rcases (among found).mp member with ⟨child, held, kind⟩
    rw [Coder.listedName?_eq_some_iff] at known
    refine ⟨child, ?_, kind⟩
    rw [known] at held
    simpa [Coder.storedName] using held
  · rintro ⟨child, held, kind⟩
    refine ⟨{ entry with name := fleet.coder.storedName entry },
      (among _).mpr ⟨child, held, kind⟩, ?_⟩
    rw [Option.map_eq_some_iff]
    refine ⟨entry.name, ?_, rfl⟩
    rw [Coder.listedName?_eq_some_iff]
    simp [Coder.storedName]

/-- Entries that are told apart have different names. -/
theorem nodup_listed
    (tidy : fleet.host.Tidy)
    (absolute : Host.isAbsolute root)
    (proper : directory.Proper)
    (resolved : fleet.host.resolve (Devices.resolve root directory) true =
      .ok id)
    (isDirectory : fleet.host.isDirectory id)
    (apart : ∀ entry ∈ fleet.coder.listed stored,
      fleet.TellsApart root directory entry) :
    ((fleet.coder.listed stored).map (·.name)).Nodup := by
  -- A directory and a file of one name are kept from each other.
  have differ {name : String} {folder file : NodeId}
      (first : (name, folder) ∈ fleet.host.entries id)
      (isFolder : (fleet.host.node folder).body.kind = .directory)
      (second : (name ++ fleet.coder.ending 0, file) ∈
        fleet.host.entries id)
      (isFile : (fleet.host.node file).body.kind ≠ .directory) :
      False := by
    have listed : (⟨name, .directory⟩ : Entry) ∈
        fleet.coder.listed stored :=
      (mem_listed_iff same).mpr ⟨folder, first, isFolder⟩
    have told := apart _ listed
    have fits := told.fits
    rw [Coder.devicePath_child] at fits
    have known := Host.attributes_of_fits absolute proper
      (Coder.isName_ending told.named fleet.coder 0) resolved isDirectory fits
    rw [(tidy.entries id).1.find?_of_mem second, ← Coder.devicePath_child]
      at known
    exact isFile (told.alone rfl _ known)
  have names : (fleet.coder.listed stored).map (·.name) =
      stored.filterMap fun entry =>
        fleet.coder.listedName? entry.name (entry.kind == .directory) := by
    rw [Coder.listed, List.map_filterMap]
    simp [Function.comp_def]
  rw [names, (same.filterMap _).nodup_iff, List.filterMap_map]
  refine List.Pairwise.filterMap _ ?_
    (List.Pairwise.and_mem.mp (List.pairwise_map.mp (tidy.entries id).1))
  rintro ⟨left, one⟩ ⟨right, two⟩ ⟨first, second, differs⟩ name leftName
    other rightName rfl
  simp only [Function.comp_apply, Host.entryOf, Coder.listedName?_eq_some_iff,
    beq_iff_eq] at leftName rightName
  split at leftName <;> split at rightName
  · exact differs (leftName.trans rightName.symm)
  · exact differ (leftName ▸ first) ‹_› (rightName ▸ second) ‹_›
  · exact differ (rightName ▸ second) ‹_› (leftName ▸ first) ‹_›
  · exact differs (leftName.trans rightName.symm)

end Listed

/-- Where files keep their names, an entry is told from every other one if
the host takes its place. -/
theorem tellsApart_iff_of_plain
    {fleet : Fleet Host}
    {root : String}
    {directory : Path}
    {id child : NodeId}
    {entry : Entry}
    (plain : fleet.coder.mode ≠ .erasure)
    (tidy : fleet.host.Tidy)
    (absolute : Host.isAbsolute root)
    (proper : directory.Proper)
    (resolved : fleet.host.resolve (Devices.resolve root directory) true =
      .ok id)
    (isDirectory : fleet.host.isDirectory id)
    (held : (fleet.coder.storedName entry, child) ∈ fleet.host.entries id)
    (kind : (fleet.host.node child).body.kind = entry.kind) :
    fleet.TellsApart root directory entry ↔
      Devices.Fits root (directory.child entry.name) := by
  have own : fleet.coder.storedName entry = entry.name := by
    simp [Coder.storedName, Coder.ending_of_plain plain]
  have place : fleet.coder.devicePath (directory.child entry.name) 0 =
      directory.child entry.name := by
    rw [Coder.devicePath_child, Coder.ending_of_plain plain,
      String.append_empty]
  rw [own] at held
  have named := ((tidy.entries id).2 _ held).1.1
  constructor
  · intro apart
    rw [← place]
    exact apart.fits
  · intro fits
    refine ⟨named, place.symm ▸ fits, fun folder found asked => ?_⟩
    rw [place, Host.attributes_of_fits absolute proper named resolved
      isDirectory fits, (tidy.entries id).1.find?_of_mem held] at asked
    rw [← Except.ok.inj asked, ← folder, ← kind]
    rfl

namespace Layer

/-- What a layer reports for a path is of a kind. -/
def Reports
    {σ : Type}
    (layer : Layer σ)
    (path : Path)
    (kind : Kind)
    (state : σ) :
    Prop :=
  ∃ found, ((layer.attributes path none).execute state).1 = .ok found ∧
    found.kind = kind

/-- The stage reports what the first device knows. -/
theorem reports_iff
    {root : String}
    {others : List String}
    {meter : Meter (Session (Fleet Host))}
    {path : Path}
    {kind : Kind}
    {session : Session (Fleet Host)} :
    (Layer.ofDevices ⟨Host.backend, root :: others⟩ meter).Reports path kind
        session ↔
      ∃ found, Devices.known root path session.storage = .ok found ∧
        found.kind = kind := by
  rw [← @Devices.attributes_kind_iff root others]
  rfl

/-- Where a path leads to a directory on every device, its entries are listed
as those of the first device. -/
theorem lists_of_directories
    {root : String}
    {others : List String}
    {meter : Meter (Session (Fleet Host))}
    {directory : Path}
    {id : NodeId}
    {session : Session (Fleet Host)}
    (first : session.storage.host.resolve (Devices.resolve root directory)
      true = .ok id)
    (there : ∀ device ∈ root :: others, ∃ id,
      session.storage.host.resolve (Devices.resolve device directory) true =
          .ok id ∧
        session.storage.host.isDirectory id) :
    let layer := Layer.ofDevices ⟨Host.backend, root :: others⟩ meter
    ∃ handle opened listed stored,
      (layer.openDirectory directory).execute session = (.ok handle, opened) ∧
      (layer.readDirectory directory handle).execute opened =
        (.ok (session.storage.coder.listed stored), listed) ∧
      stored.Perm ((session.storage.host.entries id).map
        session.storage.host.entryOf) := by
  intro layer
  rcases Devices.openDirectory_answers first there with ⟨handle, opens, same⟩
  rcases Session.onStorage_answers opens with ⟨opened, ran, held⟩
  refine ⟨handle, opened, opened, handle.primary, ran, ?_, same⟩
  rw [← held]
  rfl

/--
After any calls that change names, on devices of a host that was in order, no
name of a directory is listed twice and every listed name is reported as what
it is listed as, exactly if each entry is told from every other one.  Where
files keep their names, this takes no more than that the host takes the places
of the entries.
-/
theorem listed_once_and_reported_iff
    {root : String}
    {others : List String}
    {meter : Meter (Session (Fleet Host))}
    (absolute : Host.isAbsolute root)
    {start : Session (Fleet Host)}
    (tidy : start.storage.host.Tidy)
    (calls : List NameCall)
    {directory : Path}
    (proper : directory.Proper)
    {handle : DirectoryHandle}
    {entries : List Entry}
    {opened listed : Session (Fleet Host)} :
    let layer := Layer.ofDevices ⟨Host.backend, root :: others⟩ meter
    let reached := layer.afterCalls calls start
    (layer.openDirectory directory).execute reached = (.ok handle, opened) →
    (layer.readDirectory directory handle).execute opened =
      (.ok entries, listed) →
    (((entries.map (·.name)).Nodup ∧
        ∀ entry ∈ entries, Path.IsName entry.name ∧
          layer.Reports (directory.child entry.name) entry.kind reached) ↔
      ∀ entry ∈ entries, reached.storage.TellsApart root directory entry) ∧
    (reached.storage.coder.mode ≠ .erasure →
      ∀ entry ∈ entries,
        (reached.storage.TellsApart root directory entry ↔
          Devices.Fits root (directory.child entry.name))) := by
  intro layer reached opens lists
  have ordered : reached.storage.host.Tidy :=
    afterCalls_preserves (Layer.ofDevices_call_preserves
      (fun request _ held => held.serve request) meter) calls tidy
  rcases Devices.listing_of_openDirectory (Session.execute_onStorage opens)
    with ⟨coder, left, listing⟩
  rcases Host.directory_of_listing listing with
    ⟨-, id, resolved, isDirectory, same⟩
  have given : reached.storage.coder.listed handle.primary = entries := by
    have read : (Session.onStorage (Devices.readDirectory handle)).execute
        opened = (.ok entries, listed) :=
      lists
    have answered := congrArg Prod.fst (Session.execute_onStorage read)
    rw [← coder]
    exact Except.ok.inj answered
  subst given
  constructor
  · constructor
    · rintro ⟨-, reported⟩ entry member
      rcases (mem_listed_iff same).mp member with ⟨child, held, kind⟩
      rcases reported entry member with ⟨named, found⟩
      exact (known_kind_iff ordered absolute proper resolved isDirectory held
        kind named).mp (reports_iff.mp found)
    · intro apart
      refine ⟨nodup_listed same ordered absolute proper resolved isDirectory
        apart, fun entry member => ?_⟩
      rcases (mem_listed_iff same).mp member with ⟨child, held, kind⟩
      have told := apart entry member
      exact ⟨told.named, reports_iff.mpr ((known_kind_iff ordered absolute
        proper resolved isDirectory held kind told.named).mpr told)⟩
  · intro plain entry member
    rcases (mem_listed_iff same).mp member with ⟨child, held, kind⟩
    exact tellsApart_iff_of_plain plain ordered absolute proper resolved
      isDirectory held kind

end Layer

/-! ## Two devices -/

/-- Two empty directories below the root. -/
def Host.twoDirectories :
    Host where
  nodes := #[
    { body := .directory [("first", 1), ("second", 2)], permissions := 0o755 },
    { body := .directory [], permissions := 0o755 },
    { body := .directory [], permissions := 0o755 }]

theorem Host.tidy_twoDirectories :
    Host.twoDirectories.Tidy := by
  have empty : Body.Tidy 3 (.directory []) :=
    ⟨Table.unique_nil, fun _ member => nomatch member⟩
  refine ⟨rfl, (fun _ member => nomatch member), fun id => ?_⟩
  match id with
  | 0 =>
      have unique : ["first", "second"].Nodup := by decide
      refine ⟨unique, fun entry member => ?_⟩
      rcases List.mem_cons.mp member with rfl | member
      · exact ⟨⟨by decide, by decide⟩, by decide⟩
      · obtain rfl := List.mem_singleton.mp member
        exact ⟨⟨by decide, by decide⟩, by decide⟩
  | 1 => exact empty
  | 2 => exact empty
  | _ + 3 => trivial

/-- A name in a directory below the root is sought there. -/
theorem Host.seeks_below_root
    {host : Host}
    {place folder name : String}
    {id : NodeId}
    (absolute : isAbsolute place)
    (taken : pathFault? place = none)
    (names : namesOf place = [folder, name])
    (plain : IsPlain folder ∧ IsPlain name)
    (held : host.child 0 folder = .ok (some id))
    (directory : host.isDirectory id)
    (short : name.utf8ByteSize ≤ nameLimit) :
    host.Seeks place [(folder, id)] name := by
  have begins : host.start place =
      ⟨linkBudget, [], [folder, name], endsInSlash place⟩ := by
    unfold Host.start
    rw [if_pos absolute, names]
  refine ⟨taken, ⟨linkBudget, ?_⟩, plain.2, directory, short⟩
  rw [begins]
  exact .single (.enter _ _ plain.1 held directory (List.cons_ne_nil _ _))

namespace Layer

open Host

/-- The stage over two directories. -/
def ofTwoDirectories :
    Layer (Session (Fleet Host)) :=
  .ofDevices ⟨Host.backend, ["/first", "/second"]⟩ .silent

/-- The places of both directories are directories wherever they are below the
root. -/
theorem directories_of_two
    {host : Host}
    (first : host.child 0 "first" = .ok (some 1))
    (isFirst : host.isDirectory 1)
    (second : host.child 0 "second" = .ok (some 2))
    (isSecond : host.isDirectory 2) :
    host.resolve "/first/" true = .ok 1 ∧
      ∀ device ∈ ["/first", "/second"], ∃ id,
        host.resolve (Devices.resolve device ⟨[]⟩) true = .ok id ∧
          host.isDirectory id := by
  have proper : (Path.child ⟨[]⟩ "a").Proper := by
    intro name member
    obtain rfl := List.mem_singleton.mp member
    decide
  have inFirst := @seeks_below_root host "/first/a" "first" "a" 1 rfl rfl rfl
    (by decide) first isFirst (by decide)
  have inSecond := @seeks_below_root host "/second/a" "second" "a" 2 rfl rfl
    rfl (by decide) second isSecond (by decide)
  have resolved : host.resolve (Devices.resolve "/first" ⟨[]⟩) true =
      .ok (here [("first", 1)]) :=
    Seeks.resolve_parent rfl proper inFirst
  refine ⟨resolved, fun device member => ?_⟩
  rcases List.mem_cons.mp member with rfl | member
  · exact ⟨1, resolved, isFirst⟩
  · obtain rfl := List.mem_singleton.mp member
    exact ⟨here [("second", 2)], Seeks.resolve_parent rfl proper inSecond,
      isSecond⟩

/-- A directory is made in both directories, and a file of a code beside
it. -/
theorem exists_served_of_two :
    ∃ made,
      Fanout.Served Host.backend
        [.makeDirectory "/first/a" 0o755, .makeDirectory "/second/a" 0o755]
        [.done, .done] twoDirectories made ∧
      (made.resolve "/first/" true = .ok 1 ∧
        ∀ device ∈ ["/first", "/second"], ∃ id,
          made.resolve (Devices.resolve device ⟨[]⟩) true = .ok id ∧
            made.isDirectory id) ∧
      (made.entries 1).map made.entryOf = [⟨"a", .directory⟩] ∧
      ∃ filled,
        Fanout.Served Host.backend
          [.create "/first/a-00000.data" 0o644,
            .create "/second/a-00000.parity" 0o644]
          [.opened 0, .opened 1] made filled ∧
        (filled.resolve "/first/" true = .ok 1 ∧
          ∀ device ∈ ["/first", "/second"], ∃ id,
            filled.resolve (Devices.resolve device ⟨[]⟩) true = .ok id ∧
              filled.isDirectory id) ∧
        (filled.entries 1).map filled.entryOf =
          [⟨"a-00000.data", .file⟩, ⟨"a", .directory⟩] := by
  refine ⟨_, .next (@perform_makeDirectory _ 1 "a" _ ["first"] false _ ?_)
    (.next (@perform_makeDirectory _ 2 "a" _ ["second"] false _ ?_)
      (.nothing _)),
    directories_of_two rfl rfl rfl rfl, rfl, _,
    .next (@perform_create _ 1 "a-00000.data" _ ["first"] _ ?_)
      (.next (@perform_create _ 2 "a-00000.parity" _ ["second"] _ ?_)
        (.nothing _)),
    directories_of_two rfl rfl rfl rfl, rfl⟩
  · exact (@seeks_below_root _ _ "first" _ 1 rfl rfl rfl (by decide) rfl rfl
      (by decide)).locate_free rfl false
  · exact (@seeks_below_root _ _ "second" _ 2 rfl rfl rfl (by decide) rfl rfl
      (by decide)).locate_free rfl false
  · exact (@seeks_below_root _ _ "first" _ 1 rfl rfl rfl (by decide) rfl rfl
      (by decide)).locate_free rfl true
  · exact (@seeks_below_root _ _ "second" _ 2 rfl rfl rfl (by decide) rfl rfl
      (by decide)).locate_free rfl true

/-- A directory and a file of one name, made in both directories by a code
with one data shard, are listed alike. -/
theorem lists_directory_and_file :
    ∃ coder : ErasureCoder,
      ErasureCoder.ofShape 1 1 = .ok coder ∧
      let reached := ofTwoDirectories.afterCalls
        [.makeDirectory ⟨["a"]⟩ 0o755, .create ⟨["a"]⟩ 0o644]
        { storage := ⟨.erasure coder, twoDirectories⟩ }
      ∃ handle entries opened listed,
        (ofTwoDirectories.openDirectory ⟨[]⟩).execute reached =
          (.ok handle, opened) ∧
        (ofTwoDirectories.readDirectory ⟨[]⟩ handle).execute opened =
          (.ok entries, listed) ∧
        entries.Perm [⟨"a", .file⟩, ⟨"a", .directory⟩] := by
  refine ⟨_, rfl, ?_⟩
  intro reached
  rcases exists_served_of_two with
    ⟨made, makes, -, -, filled, fills, ⟨first, there⟩, entries⟩
  have storage : reached.storage = ⟨_, filled⟩ :=
    @storage_afterCalls_of_served Host ⟨Host.backend, ["/first", "/second"]⟩
      .silent _ ⟨["a"]⟩ 0o755 filled ⟨["a"]⟩ 0o644 _ [0, 1] made makes fills
  have host : reached.storage.host = filled := congrArg Fleet.host storage
  rw [← host] at first there entries
  rcases @lists_of_directories "/first" ["/second"] .silent ⟨[]⟩ _ reached
    first there with ⟨handle, opened, listed, stored, opens, lists, same⟩
  refine ⟨handle, _, opened, listed, opens, lists, ?_⟩
  rw [entries] at same
  rw [storage]
  exact same.filterMap _

/-- Calls that all succeed make a directory whose name is listed twice. -/
theorem name_listed_twice :
    ∃ coder : ErasureCoder,
      ErasureCoder.ofShape 1 1 = .ok coder ∧
      let reached := ofTwoDirectories.afterCalls
        [.makeDirectory ⟨["a"]⟩ 0o755, .create ⟨["a"]⟩ 0o644]
        { storage := ⟨.erasure coder, twoDirectories⟩ }
      ∃ handle entries opened listed,
        (ofTwoDirectories.openDirectory ⟨[]⟩).execute reached =
          (.ok handle, opened) ∧
        (ofTwoDirectories.readDirectory ⟨[]⟩ handle).execute opened =
          (.ok entries, listed) ∧
        ¬ (entries.map (·.name)).Nodup := by
  rcases lists_directory_and_file with
    ⟨coder, shape, handle, entries, opened, listed, opens, lists, same⟩
  refine ⟨coder, shape, handle, entries, opened, listed, opens, lists, ?_⟩
  rw [(same.map _).nodup_iff]
  decide

/-- Two copies of a directory are listed once and reported, and beside a file
of a code the directory is not told apart. -/
theorem listed_once_and_reported_iff_of_two :
    (let reached := ofTwoDirectories.afterCalls
        [.makeDirectory ⟨["a"]⟩ 0o755]
        { storage := ⟨.replicate, twoDirectories⟩ }
      ∃ handle entries opened listed,
        (ofTwoDirectories.openDirectory ⟨[]⟩).execute reached =
          (.ok handle, opened) ∧
        (ofTwoDirectories.readDirectory ⟨[]⟩ handle).execute opened =
          (.ok entries, listed) ∧
        (entries.map (·.name)).Nodup ∧
          ∀ entry ∈ entries, Path.IsName entry.name ∧
            ofTwoDirectories.Reports (Path.child ⟨[]⟩ entry.name) entry.kind
              reached) ∧
    ∃ coder : ErasureCoder,
      ErasureCoder.ofShape 1 1 = .ok coder ∧
      let reached := ofTwoDirectories.afterCalls
        [.makeDirectory ⟨["a"]⟩ 0o755, .create ⟨["a"]⟩ 0o644]
        { storage := ⟨.erasure coder, twoDirectories⟩ }
      ∃ handle entries opened listed,
        (ofTwoDirectories.openDirectory ⟨[]⟩).execute reached =
          (.ok handle, opened) ∧
        (ofTwoDirectories.readDirectory ⟨[]⟩ handle).execute opened =
          (.ok entries, listed) ∧
        ¬ ∀ entry ∈ entries,
          reached.storage.TellsApart "/first" ⟨[]⟩ entry := by
  have proper : Path.Proper ⟨[]⟩ := fun _ member => nomatch member
  constructor
  · intro reached
    rcases exists_served_of_two with
      ⟨made, makes, ⟨first, there⟩, entries, -⟩
    have makes : (ofTwoDirectories.call (.makeDirectory ⟨["a"]⟩ 0o755)).Answers
        { storage := ⟨.replicate, twoDirectories⟩ } ()
        (fun left => left.storage = ⟨.replicate, made⟩) :=
      @makeDirectory_answers Host _ .silent { storage := ⟨_, twoDirectories⟩ }
        ⟨["a"]⟩ 0o755 made _ makes
    rcases afterCalls_cons_of_answers makes with ⟨left, held, same⟩
    have storage : reached.storage = ⟨.replicate, made⟩ :=
      (congrArg Session.storage (same [])).trans held
    have host : reached.storage.host = made := congrArg Fleet.host storage
    rw [← host] at first there entries
    rcases @lists_of_directories "/first" ["/second"] .silent ⟨[]⟩ _ reached
      first there with ⟨handle, opened, listed, stored, opens, lists, same⟩
    refine ⟨handle, _, opened, listed, opens, lists, ?_⟩
    rw [entries] at same
    have told := listed_once_and_reported_iff rfl tidy_twoDirectories
      [.makeDirectory ⟨["a"]⟩ 0o755] proper opens lists
    have plain : reached.storage.coder.mode ≠ .erasure := by
      rw [storage]
      exact nofun
    refine told.1.mpr fun entry member => (told.2 plain entry member).mpr ?_
    have only : entry ∈ Coder.listed .replicate [⟨"a", .directory⟩] := by
      rw [storage] at member
      exact (same.filterMap _).mem_iff.mp member
    obtain rfl := List.mem_singleton.mp only
    exact Devices.fits_child_iff.mpr ⟨by decide, by decide⟩
  · rcases lists_directory_and_file with
      ⟨coder, shape, handle, entries, opened, listed, opens, lists, same⟩
    refine ⟨coder, shape, handle, entries, opened, listed, opens, lists, ?_⟩
    intro apart
    have once := ((listed_once_and_reported_iff rfl tidy_twoDirectories
      [.makeDirectory ⟨["a"]⟩ 0o755, .create ⟨["a"]⟩ 0o644] proper opens
      lists).1.mpr apart).1
    rw [(same.map _).nodup_iff] at once
    exact absurd once (by decide)

end Layer

end Strata
