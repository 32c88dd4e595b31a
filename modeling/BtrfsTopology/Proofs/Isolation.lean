import BtrfsTopology.Proofs.Discovery

/-!
# Discovered filesystems do not depend on one another

The mounts of a host are listed together, and its filesystems are loaded one after another. What is
found of one of them depends on nothing but the last record that lists it, its own mounts, and what
the host replies to two questions at the first of these. Two hosts that agree so far may differ in
all else, and the mounts of others may stand anywhere between its own.

## Main definitions

* `RepliesAlike` — two runs got the same replies to an inspection

## Main results

* `Query.exists_replies_of_contents` — contents are read off two replies
* `Query.Discovers.exchanges_load_subset` — what a load asks is asked in the course of the discovery
-/

namespace BtrfsTopology

/-- Whatever one run and the other got as replies to an inspection, it was the same. -/
def RepliesAlike (query : Inspection) (exchanges exchanges' : List Exchange) : Prop :=
  ∀ reply reply', ⟨.inspect query, reply⟩ ∈ exchanges → ⟨.inspect query, reply'⟩ ∈ exchanges' →
    reply = reply'

theorem RepliesAlike.mono {query : Inspection} {exchanges exchanges' part part' : List Exchange}
    (h : RepliesAlike query exchanges exchanges') (hpart : part ⊆ exchanges)
    (hpart' : part' ⊆ exchanges') : RepliesAlike query part part' :=
  fun reply reply' hreply hreply' => h reply reply' (hpart hreply) (hpart' hreply')

/-- Every reply of a run is one that the host gives in some state. -/
theorem Dialogue.exists_state_of_mem_exchanges {α τ : Type} {host : Dialogue.Host τ}
    {d : Dialogue α} {state : τ} {exchange : Exchange} (h : exchange ∈ d.exchanges host state) :
    ∃ state', exchange.reply = (host exchange.request state').1 := by
  induction d generalizing state with
  | done value => exact absurd h List.not_mem_nil
  | ask r next ih =>
    rcases List.mem_cons.1 h with rfl | h
    · exact ⟨state, rfl⟩
    · exact ih _ h

/-- Hosts that reply to an inspection alike in all their states give runs the same replies. -/
theorem repliesAlike_of_hosts {α β τ τ' : Type} {host : Dialogue.Host τ} {host' : Dialogue.Host τ'}
    {query : Inspection}
    (h : ∀ state state', (host (.inspect query) state).1 = (host' (.inspect query) state').1)
    (q : Query α) (q' : Query β) (state : τ) (state' : τ') :
    RepliesAlike query (q.exchanges host state) (q'.exchanges host' state') := by
  intro reply reply' hreply hreply'
  obtain ⟨asked, heq⟩ := Dialogue.exists_state_of_mem_exchanges hreply
  obtain ⟨asked', heq'⟩ := Dialogue.exists_state_of_mem_exchanges hreply'
  exact (heq.trans (h asked asked')).trans heq'.symm

namespace Query

open Filesystem

variable {τ τ' : Type} {host : Dialogue.Host τ} {host' : Dialogue.Host τ'} {state : τ} {state' : τ'}
  {mount : VfsPath} {mountpoints : List Mountpoint} {record : ListedFilesystem}
  {before after : List ListedFilesystem} {found : FilesystemMap}

/-- A value that was read off a reply comes with the exchange that gave the reply. -/
theorem exists_reply_of_inspect {α : Type} {query : Inspection} {next : CommandOutput → Query α}
    {a : α} (h : (Query.outcome (Query.inspect query >>= next) host state).value = .ok a) :
    ∃ output, ⟨.inspect query, .ok output⟩ ∈ (Query.inspect query >>= next).exchanges host state ∧
      ((next output).outcome host (host (.inspect query) state).2).value = .ok a := by
  obtain ⟨output, houtput, hnext⟩ := bind_eq_ok_iff.1 h
  refine ⟨output, ?_, hnext⟩
  have hreply : (host (.inspect query) state).1 = .ok output := houtput
  apply exchanges_subset_of_first houtput
  rw [exchanges_inspect, hreply]
  exact List.mem_cons_self

/-- What was learned through a mount is what two replies say that were got for it. -/
theorem exists_replies_of_contents {contents : List Subvolume × Nat}
    (h : ((Query.contents mount).outcome host state).value = .ok contents) :
    ∃ listing named : CommandOutput,
      ⟨.inspect (.subvolumes mount), .ok listing⟩ ∈ (Query.contents mount).exchanges host state ∧
      ⟨.inspect (.defaultSubvolume mount), .ok named⟩ ∈
        (Query.contents mount).exchanges host state ∧
      listing.printed.bind Listing.readSubvolumes = .ok contents.1 ∧
      named.printed.bind Listing.readDefault = .ok contents.2 := by
  obtain ⟨subvolumes, hsubvolumes, hrest⟩ := bind_eq_ok_iff.1 h
  obtain ⟨defaultId, hdefault, hvalue⟩ := bind_eq_ok_iff.1 hrest
  obtain rfl := pure_eq_ok_iff.1 hvalue
  obtain ⟨listing, hlisting, hread⟩ := exists_reply_of_inspect hsubvolumes
  obtain ⟨named, hnamed, hnumber⟩ := exists_reply_of_inspect hdefault
  exact ⟨listing, named, exchanges_subset_of_first hsubvolumes hlisting,
    exchanges_subset_of_next hsubvolumes (exchanges_subset_of_first hdefault hnamed), hread,
    hnumber⟩

/-- Contents that were learned in two runs are the same if the replies were. -/
theorem contents_eq_of_repliesAlike {contents contents' : List Subvolume × Nat}
    (h : ((Query.contents mount).outcome host state).value = .ok contents)
    (h' : ((Query.contents mount).outcome host' state').value = .ok contents')
    (hsubvolumes : RepliesAlike (.subvolumes mount) ((Query.contents mount).exchanges host state)
      ((Query.contents mount).exchanges host' state'))
    (hdefault : RepliesAlike (.defaultSubvolume mount)
      ((Query.contents mount).exchanges host state)
      ((Query.contents mount).exchanges host' state')) : contents = contents' := by
  obtain ⟨listing, named, hlisting, hnamed, hread, hnumber⟩ := exists_replies_of_contents h
  obtain ⟨listing', named', hlisting', hnamed', hread', hnumber'⟩ := exists_replies_of_contents h'
  obtain rfl := Except.ok.inj (hsubvolumes _ _ hlisting hlisting')
  obtain rfl := Except.ok.inj (hdefault _ _ hnamed hnamed')
  exact Prod.ext (Except.ok.inj (hread.symm.trans hread'))
    (Except.ok.inj (hnumber.symm.trans hnumber'))

/-- What is asked to load a filesystem is asked in the course of the discovery. -/
theorem Discovers.exchanges_load_subset
    (h : Discovers host state (before ++ record :: after) mountpoints found) :
    (Query.load mountpoints record).exchanges host
        ((Query.loadAll mountpoints before .empty).outcome host (stateToLoad host state)).host ⊆
      Query.discover.exchanges host state := by
  -- The parts of the discovery that come before the load have values, as the whole has one.
  obtain ⟨listed, hlisted, hrest⟩ := bind_eq_ok_iff.1 h.discover
  obtain rfl := Except.ok.inj (hlisted.symm.trans h.filesystems)
  obtain ⟨mountpoints', hmountpoints, hloads⟩ := bind_eq_ok_iff.1 hrest
  obtain rfl := Except.ok.inj (hmountpoints.symm.trans h.mounts)
  rw [loadAll_append] at hloads
  obtain ⟨earlier, hearlier, hlater⟩ := bind_eq_ok_iff.1 hloads
  obtain ⟨fs, hload, -⟩ := bind_eq_ok_iff.1 hlater
  rw [Query.discover]
  refine List.Subset.trans ?_ (exchanges_subset_of_next hlisted)
  refine List.Subset.trans ?_ (exchanges_subset_of_next hmountpoints)
  rw [loadAll_append]
  refine List.Subset.trans ?_ (exchanges_subset_of_next hearlier)
  exact exchanges_subset_of_first hload

/-- What is loaded depends on the record, its own mounts and the replies about the contents. -/
theorem load_eq_of_repliesAlike {record' : ListedFilesystem} {mountpoints' : List Mountpoint}
    {fs fs' : Filesystem} (huuid : record.uuid = record'.uuid)
    (hlabel : record.label = record'.label)
    (hdevices : DeviceSet.ofDevices record.devices = DeviceSet.ofDevices record'.devices)
    (hmounts : record.ownMounts mountpoints = record'.ownMounts mountpoints')
    (h : ((Query.load mountpoints record).outcome host state).value = .ok fs)
    (h' : ((Query.load mountpoints' record').outcome host' state').value = .ok fs')
    (hreplies : ∀ m, (record.ownMounts mountpoints).head? = some m →
      ∀ query ∈ [Inspection.subvolumes m.path, .defaultSubvolume m.path],
        RepliesAlike query ((Query.load mountpoints record).exchanges host state)
          ((Query.load mountpoints' record').exchanges host' state')) : fs = fs' := by
  have hstart : record.mounted mountpoints = record'.mounted mountpoints' := by
    rw [ListedFilesystem.mounted_eq, ListedFilesystem.mounted_eq, hmounts]
    simp only [ListedFilesystem.toFilesystem, Filesystem.new, huuid, hlabel, hdevices]
  have hload (start : ListedFilesystem) (all : List Mountpoint) :
      Query.load all start = refreshContents.final (start.mounted all) := rfl
  rw [hload] at h h' hreplies
  rw [hload, ← hstart] at hreplies
  rw [← hstart] at h'
  cases hhandle : (record.mounted mountpoints).handle? with
  | none =>
    rw [final_refreshContents_of_unmounted hhandle] at h h'
    exact (pure_eq_ok_iff.1 h).symm.trans (pure_eq_ok_iff.1 h')
  | some mount =>
    rw [final_refreshContents_of_mounted hhandle] at h h' hreplies
    obtain ⟨contents, hcontents, hvalue⟩ := bind_eq_ok_iff.1 h
    obtain ⟨contents', hcontents', hvalue'⟩ := bind_eq_ok_iff.1 h'
    obtain rfl := pure_eq_ok_iff.1 hvalue
    obtain rfl := pure_eq_ok_iff.1 hvalue'
    obtain ⟨m, hm, rfl⟩ := Option.map_eq_some_iff.1 hhandle
    have halike (query : Inspection)
        (hquery : query ∈ [Inspection.subvolumes m.path, .defaultSubvolume m.path]) :=
      (hreplies m hm query hquery).mono (exchanges_subset_of_first hcontents)
        (exchanges_subset_of_first hcontents')
    rw [contents_eq_of_repliesAlike hcontents hcontents' (halike _ (by simp)) (halike _ (by simp))]

/-- Discovered filesystems are isolated from each other. Take two discoveries that succeed, with two
hosts, and an identity that both list. If the last records with it have the same label and devices,
and the mounts of these devices are the same, and if what is replied at the first such mount about
subvolumes and default is the same, then the same filesystem is found under the identity, whatever
else the two hosts list, mount and reply. -/
theorem discover_isolated {listed listed' : List ListedFilesystem}
    {mountpoints mountpoints' : List Mountpoint} {found found' : FilesystemMap} {uuid : String}
    {record record' : ListedFilesystem}
    (h : Discovers host state listed mountpoints found)
    (h' : Discovers host' state' listed' mountpoints' found')
    (hlast : ListedFilesystem.last? listed uuid = some record)
    (hlast' : ListedFilesystem.last? listed' uuid = some record')
    (hlabel : record.label = record'.label)
    (hdevices : DeviceSet.ofDevices record.devices = DeviceSet.ofDevices record'.devices)
    (hmounts : record.ownMounts mountpoints = record'.ownMounts mountpoints')
    (hreplies : ∀ m, (record.ownMounts mountpoints).head? = some m →
      ∀ query ∈ [Inspection.subvolumes m.path, .defaultSubvolume m.path],
        RepliesAlike query (Query.discover.exchanges host state)
          (Query.discover.exchanges host' state')) :
    ∃ fs, found.get? uuid = some fs ∧ found'.get? uuid = some fs := by
  obtain ⟨before, after, -, fs, rfl, -, hload, hfound⟩ := h.exists_load hlast
  obtain ⟨before', after', -, fs', rfl, -, hload', hfound'⟩ := h'.exists_load hlast'
  have huuid : record.uuid = record'.uuid :=
    (ListedFilesystem.last?_eq_some_iff.1 hlast).1.trans
      (ListedFilesystem.last?_eq_some_iff.1 hlast').1.symm
  -- Each load got its replies in the course of its own discovery.
  obtain rfl : fs = fs' :=
    load_eq_of_repliesAlike huuid hlabel hdevices hmounts hload hload' fun m hm query hquery =>
      (hreplies m hm query hquery).mono h.exchanges_load_subset h'.exchanges_load_subset
  exact ⟨fs, hfound, hfound'⟩

/-- The same filesystem on a host of its own, and on one that lists the mount of another filesystem
in front of its mount and names another default for that one. -/
theorem discover_isolated_on_shared_host :
    let host (filesystems mounts : String) (default : VfsPath → String) : Dialogue.Host Unit
      | .inspect .filesystems, _ => (.ok ⟨"btrfs", 0, filesystems, ""⟩, ())
      | .inspect .mounts, _ => (.ok ⟨"findmnt", 0, mounts, ""⟩, ())
      | .inspect (.subvolumes _), _ => (.ok ⟨"btrfs", 0, "", ""⟩, ())
      | .inspect (.defaultSubvolume mount), _ => (.ok ⟨"btrfs", 0, default mount, ""⟩, ())
      | .mutate _, _ => (.ok (), ())
      | .resolveDevice device, _ => (device, ())
    let heading := "Label: none  uuid: 1111\ndevid 1 path /dev/sda\n"
    let line :=
      "TARGET=\"/srv\" SOURCE=\"/dev/sda\" FSTYPE=\"btrfs\" OPTIONS=\"subvolid=5,subvol=/\""
    let alone := host heading line fun _ => "ID 5"
    let shared := host ("Label: none  uuid: 2222\ndevid 1 path /dev/sdb\n" ++ heading)
      ("TARGET=\"/\" SOURCE=\"/dev/sdb\" FSTYPE=\"btrfs\" OPTIONS=\"subvolid=5,subvol=/\"\n" ++
        line)
      fun mount => if mount = ⟨"/srv"⟩ then "ID 5" else "ID 9"
    let record : ListedFilesystem := ⟨"1111", none, [⟨"/dev/sda"⟩]⟩
    let other : ListedFilesystem := ⟨"2222", none, [⟨"/dev/sdb"⟩]⟩
    let mount : Mountpoint := ⟨⟨"/srv"⟩, ⟨"/dev/sda"⟩, 5, "/"⟩
    let foreign : Mountpoint := ⟨⟨"/"⟩, ⟨"/dev/sdb"⟩, 5, "/"⟩
    let fs := (record.mounted [mount]).withContents ([.topLevel], 5)
    let found : FilesystemMap := ⟨[("1111", fs)]⟩
    let found' : FilesystemMap :=
      ⟨[("1111", fs), ("2222", (other.mounted [foreign]).withContents ([.topLevel], 9))]⟩
    Discovers alone () [record] [mount] found ∧
      Discovers shared () [other, record] [foreign, mount] found' ∧
      record.ownMounts [mount] = record.ownMounts [foreign, mount] ∧
      ∃ fs, found.get? "1111" = some fs ∧ found'.get? "1111" = some fs := by
  intro host heading line alone shared record other mount foreign fs found found'
  have halone : Discovers alone () [record] [mount] found :=
    ⟨by decide +kernel, by decide +kernel, by decide +kernel⟩
  have hshared : Discovers shared () [other, record] [foreign, mount] found' :=
    ⟨by decide +kernel, by decide +kernel, by decide +kernel⟩
  have hmounts : record.ownMounts [mount] = record.ownMounts [foreign, mount] := by decide
  refine ⟨halone, hshared, hmounts,
    discover_isolated halone hshared rfl rfl rfl rfl hmounts fun m hm query hquery => ?_⟩
  have hfirst : (record.ownMounts [mount]).head? = some mount := by decide
  obtain rfl : m = mount := Option.some.inj (hm.symm.trans hfirst)
  -- Where this filesystem is mounted, the two hosts reply alike.
  rcases List.mem_pair.1 hquery with rfl | rfl
  all_goals exact repliesAlike_of_hosts (fun _ _ => rfl) _ _ _ _

end Query

end BtrfsTopology
