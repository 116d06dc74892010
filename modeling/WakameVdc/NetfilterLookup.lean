import WakameVdc.NetfilterCache

/-!
# Lookups in the netfilter cache

A vnic stands in the cache without groups, or as a local or a foreign vnic of a group. What the
lookups of `edge_networking/netfilter/cache.rb` answer for it, and what some of them raise instead.
-/

namespace WakameVdc

open Lib

namespace Netfilter

namespace Cache

variable (c : Cache) (vnicId : Text)

/-! ## The lookups -/

/-- Without a group the pairs of the groups are searched, each read as if it were the group; with
one that is not there its entry is read all the same. -/
def getForeignVnic (groupId : Option Text) : Except NetfilterError (Option VnicMap) :=
  match groupId with
  | none => if Hash.isEmpty c.securityGroups then .ok none else .error .typeError
  | some groupId =>
    match c.securityGroups.lookup groupId with
    | none => .error .noMethodError
    | some group => .ok (group.foreignVnics.lookup vnicId)

def vnicHasIp : Except NetfilterError Bool := do
  match ← c.getVnic vnicId with
  | none => return false
  | some vnic => return vnic.address.isSome

def getVnicNetwork : Except NetfilterError (Option NetworkMap) := do
  match ← c.getVnic vnicId with
  | none => throw .noMethodError
  | some vnic => return vnic.networkId.bind c.networks.lookup

theorem getVnic_eq : c.getVnic vnicId =
    match (c.getEmptyVnic vnicId).or (c.getLocalVnic vnicId) with
    | some vnic => .ok (some vnic)
    | none => c.getForeignVnic vnicId none := by
  unfold getVnic getForeignVnic
  cases c.getEmptyVnic vnicId with
  | some vnic => rfl
  | none => cases c.getLocalVnic vnicId <;> rfl

/-! ## What the cache knows -/

/-- The document of a vnic without groups, or else of a local vnic. -/
def nearVnic : Option VnicMap := (c.getEmptyVnic vnicId).or (c.getLocalVnic vnicId)

def foreignVnic : Option Text → Option VnicMap
  | none => (Hash.values c.securityGroups).findSome? fun group => group.foreignVnics.lookup vnicId
  | some groupId => (c.securityGroups.lookup groupId).bind fun group => group.foreignVnics.lookup vnicId

def knownVnic : Option VnicMap := (c.nearVnic vnicId).or (c.foreignVnic vnicId none)

/-- The vnics of a group, none for a group that is not there. -/
def vnicsInGroup (groupId : Text) : List VnicMap :=
  match c.securityGroups.lookup groupId with
  | none => []
  | some group => Hash.values group.localVnics ++ Hash.values group.foreignVnics

end Cache

inductive Answer
  | vnic (vnic : Option VnicMap)
  | vnics (vnics : List VnicMap)
  | flag (flag : Bool)
  | network (network : Option NetworkMap)
  deriving DecidableEq

inductive Lookup
  | getVnic
  | getForeignVnic (groupId : Option Text)
  | getAllFriends
  | getAllLocalFriends
  | vnicHasIp
  | getVnicNetwork

namespace Lookup

variable (c : Cache) (vnicId : Text)

def run : Lookup → Except NetfilterError Answer
  | .getVnic => (c.getVnic vnicId).map .vnic
  | .getForeignVnic groupId => (c.getForeignVnic vnicId groupId).map .vnic
  | .getAllFriends => (c.getAllFriends vnicId).map .vnics
  | .getAllLocalFriends => (c.getAllLocalFriends vnicId).map .vnics
  | .vnicHasIp => (c.vnicHasIp vnicId).map .flag
  | .getVnicNetwork => (c.getVnicNetwork vnicId).map .network

def known : Lookup → Option VnicMap
  | .getForeignVnic groupId => c.foreignVnic vnicId groupId
  | _ => c.knownVnic vnicId

def data (vnic : VnicMap) : Lookup → Answer
  | .getVnic => .vnic (some vnic)
  | .getForeignVnic _ => .vnic (some vnic)
  | .getAllFriends => .vnics (Cache.withoutSelf vnicId (vnic.securityGroups.flatMap c.vnicsInGroup))
  | .getAllLocalFriends =>
    .vnics (Cache.withoutSelf vnicId (vnic.securityGroups.flatMap c.getLocalVnicsInGroup))
  | .vnicHasIp => .flag vnic.address.isSome
  | .getVnicNetwork => .network (vnic.networkId.bind c.networks.lookup)

inductive Absent (vnicId : Text) : Except NetfilterError Answer → Prop
  | vnic : Absent vnicId (.ok (.vnic none))
  | flag : Absent vnicId (.ok (.flag false))
  | network : Absent vnicId (.ok (.network none))
  | error : Absent vnicId (.error (.vnicNotFound vnicId))

def Answers (l : Lookup) : Prop :=
  match l.known c vnicId with
  | some vnic => l.run c vnicId = .ok (l.data c vnicId vnic)
  | none => Absent vnicId (l.run c vnicId)

def Safe : Lookup → Prop
  | .getVnic | .getAllLocalFriends | .vnicHasIp =>
    (c.nearVnic vnicId).isSome = true ∨ Hash.isEmpty c.securityGroups = true
  | .getForeignVnic none => Hash.isEmpty c.securityGroups = true
  | .getForeignVnic (some groupId) => c.isLocalGroup groupId = true
  | .getAllFriends =>
    match c.nearVnic vnicId with
    | some vnic => ∀ groupId ∈ vnic.securityGroups, c.isLocalGroup groupId = true
    | none => Hash.isEmpty c.securityGroups = true
  | .getVnicNetwork => (c.nearVnic vnicId).isSome = true

variable {c vnicId}

/-! ## The search for a vnic -/

theorem getVnic_near {vnic : VnicMap} (h : c.nearVnic vnicId = some vnic) :
    c.getVnic vnicId = .ok (some vnic) ∧ c.knownVnic vnicId = some vnic := by
  unfold Cache.nearVnic at h
  unfold Cache.knownVnic Cache.nearVnic
  rw [Cache.getVnic_eq, h]
  exact ⟨rfl, rfl⟩

theorem getVnic_no_groups (h : c.nearVnic vnicId = none) (he : Hash.isEmpty c.securityGroups = true) :
    c.getVnic vnicId = .ok none ∧ c.knownVnic vnicId = none := by
  have hvalues : Hash.values c.securityGroups = [] := by
    rw [Hash.isEmpty, List.isEmpty_iff] at he
    simp [Hash.values, he]
  constructor
  · unfold Cache.nearVnic at h
    rw [Cache.getVnic_eq, h]
    simp [Cache.getForeignVnic, he]
  · simp [Cache.knownVnic, h, Cache.foreignVnic, hvalues]

theorem getVnic_raises (h : c.nearVnic vnicId = none) (he : ¬ Hash.isEmpty c.securityGroups = true) :
    c.getVnic vnicId = .error .typeError := by
  unfold Cache.nearVnic at h
  rw [Cache.getVnic_eq, h]
  simp [Cache.getForeignVnic, he]

theorem not_answers {l : Lookup} {e : NetfilterError} (h : l.run c vnicId = .error e)
    (he : e ≠ .vnicNotFound vnicId) : ¬ l.Answers c vnicId := by
  unfold Answers
  rw [h]
  cases l.known c vnicId with
  | some vnic => simp
  | none =>
    intro habsent
    cases habsent
    exact he rfl

theorem answers_some {l : Lookup} {vnic : VnicMap} (h : l.known c vnicId = some vnic) :
    l.Answers c vnicId ↔ l.run c vnicId = .ok (l.data c vnicId vnic) := by
  unfold Answers
  rw [h]

theorem answers_none {l : Lookup} (h : l.known c vnicId = none) :
    l.Answers c vnicId ↔ Absent vnicId (l.run c vnicId) := by
  unfold Answers
  rw [h]

/-! ## Friends -/

def friendsOf (c : Cache) (groupId : Text) : Except NetfilterError (List VnicMap) :=
  match c.securityGroups.lookup groupId with
  | none => throw .noMethodError
  | some group => pure (Hash.values group.localVnics ++ Hash.values group.foreignVnics)

theorem friendsOf_iff (groups : List Text) :
    groups.mapM (friendsOf c) =
      if ∀ groupId ∈ groups, c.isLocalGroup groupId = true then .ok (groups.map c.vnicsInGroup)
      else .error .noMethodError := by
  induction groups with
  | nil => rfl
  | cons groupId groups ih =>
    rw [List.mapM_cons, ih]
    simp only [List.forall_mem_cons, List.map_cons, Cache.vnicsInGroup, friendsOf]
    cases hg : c.securityGroups.lookup groupId with
    | none =>
      have hlocal : ¬ c.isLocalGroup groupId = true := by simp [Cache.isLocalGroup, hg]
      have hno : ¬ (c.isLocalGroup groupId = true ∧ ∀ groupId ∈ groups, c.isLocalGroup groupId = true) :=
        fun h => hlocal h.1
      rw [if_neg hno]
      rfl
    | some group =>
      have hlocal : c.isLocalGroup groupId = true := by simp [Cache.isLocalGroup, hg]
      by_cases hall : ∀ groupId ∈ groups, c.isLocalGroup groupId = true
      · rw [if_pos hall, if_pos ⟨hlocal, hall⟩]
        rfl
      · rw [if_neg hall, if_neg fun h => hall h.2]
        rfl

theorem getAllFriends_near {vnic : VnicMap} (h : c.nearVnic vnicId = some vnic) :
    c.getAllFriends vnicId =
      if ∀ groupId ∈ vnic.securityGroups, c.isLocalGroup groupId = true then
        .ok (Cache.withoutSelf vnicId (vnic.securityGroups.flatMap c.vnicsInGroup))
      else .error .noMethodError := by
  have hloop : c.getAllFriends vnicId =
      vnic.securityGroups.mapM (friendsOf c) >>= fun friends =>
        pure (Cache.withoutSelf vnicId friends.flatten) := by
    unfold Cache.getAllFriends
    simp only [(getVnic_near h).1]
    rfl
  rw [hloop, friendsOf_iff]
  by_cases hall : ∀ groupId ∈ vnic.securityGroups, c.isLocalGroup groupId = true
  · rw [if_pos hall, if_pos hall, List.flatMap_def]
    rfl
  · rw [if_neg hall, if_neg hall]
    rfl

/-! ## The verdict -/

theorem getForeignVnic_iff (groupId : Option Text) :
    (getForeignVnic groupId).Answers c vnicId ↔ (getForeignVnic groupId).Safe c vnicId := by
  cases groupId with
  | none =>
    by_cases he : Hash.isEmpty c.securityGroups = true
    · have hvalues : Hash.values c.securityGroups = [] := by
        rw [Hash.isEmpty, List.isEmpty_iff] at he
        simp [Hash.values, he]
      have hknown : (getForeignVnic none).known c vnicId = none := by
        simp [known, Cache.foreignVnic, hvalues]
      rw [answers_none hknown]
      refine iff_of_true ?_ he
      simp only [run, Cache.getForeignVnic, he, if_true]
      exact .vnic
    · refine iff_of_false (not_answers (e := .typeError) ?_ (by simp)) he
      simp [run, Cache.getForeignVnic, he, Except.map]
  | some groupId =>
    cases hg : c.securityGroups.lookup groupId with
    | none =>
      refine iff_of_false (not_answers (e := .noMethodError) ?_ (by simp)) ?_
      · simp [run, Cache.getForeignVnic, hg, Except.map]
      · simp [Safe, Cache.isLocalGroup, hg]
    | some group =>
      have hsafe : (getForeignVnic (some groupId)).Safe c vnicId := by
        simp [Safe, Cache.isLocalGroup, hg]
      refine iff_of_true ?_ hsafe
      have hknown : (getForeignVnic (some groupId)).known c vnicId =
          group.foreignVnics.lookup vnicId := by
        simp [known, Cache.foreignVnic, hg]
      cases hv : group.foreignVnics.lookup vnicId with
      | none =>
        rw [answers_none (hknown.trans hv)]
        simp only [run, Cache.getForeignVnic, hg, hv]
        exact .vnic
      | some vnic =>
        rw [answers_some (hknown.trans hv)]
        simp [run, Cache.getForeignVnic, hg, hv, data, Except.map]

/-- A lookup that goes by `get_vnic` answers when the document is near or there is no group. -/
theorem answers_of_getVnic {l : Lookup} (hknown : l.known c vnicId = c.knownVnic vnicId)
    (hnear : ∀ vnic, c.getVnic vnicId = .ok (some vnic) →
      l.run c vnicId = .ok (l.data c vnicId vnic))
    (hnone : c.getVnic vnicId = .ok none → Absent vnicId (l.run c vnicId))
    (hraise : c.getVnic vnicId = .error .typeError → l.run c vnicId = .error .typeError) :
    l.Answers c vnicId ↔ (c.nearVnic vnicId).isSome = true ∨ Hash.isEmpty c.securityGroups = true := by
  cases hn : c.nearVnic vnicId with
  | some vnic =>
    obtain ⟨hget, hk⟩ := getVnic_near hn
    rw [answers_some (hknown.trans hk)]
    exact iff_of_true (hnear vnic hget) (.inl rfl)
  | none =>
    by_cases he : Hash.isEmpty c.securityGroups = true
    · obtain ⟨hget, hk⟩ := getVnic_no_groups hn he
      rw [answers_none (hknown.trans hk)]
      exact iff_of_true (hnone hget) (.inr he)
    · refine iff_of_false (not_answers (hraise (getVnic_raises hn he)) (by simp)) ?_
      simp [he]

/-- A lookup answers as it should just when what it reads is there: the vnic's own document stands
without groups or among the local vnics, or else there is no group to search and the lookup can do
without the vnic; and the groups whose entries it reads are cached. -/
theorem answers_iff (c : Cache) (vnicId : Text) (l : Lookup) :
    l.Answers c vnicId ↔ l.Safe c vnicId := by
  cases l with
  | getVnic =>
    refine answers_of_getVnic rfl (fun vnic h => ?_) (fun h => ?_) fun h => ?_
    · simp [run, h, data, Except.map]
    · simp only [run, h]
      exact .vnic
    · simp [run, h, Except.map]
  | getForeignVnic groupId => exact getForeignVnic_iff groupId
  | getAllLocalFriends =>
    refine answers_of_getVnic rfl (fun vnic h => ?_) (fun h => ?_) fun h => ?_
    · simp only [run, Cache.getAllLocalFriends, h]
      rfl
    · simp only [run, Cache.getAllLocalFriends, h]
      exact .error
    · simp only [run, Cache.getAllLocalFriends, h]
      rfl
  | vnicHasIp =>
    refine answers_of_getVnic rfl (fun vnic h => ?_) (fun h => ?_) fun h => ?_
    · simp only [run, Cache.vnicHasIp, h]
      rfl
    · simp only [run, Cache.vnicHasIp, h]
      exact .flag
    · simp only [run, Cache.vnicHasIp, h]
      rfl
  | getAllFriends =>
    simp only [Safe]
    cases hn : c.nearVnic vnicId with
    | some vnic =>
      have hknown : Lookup.getAllFriends.known c vnicId = some vnic := (getVnic_near hn).2
      by_cases hall : ∀ groupId ∈ vnic.securityGroups, c.isLocalGroup groupId = true
      · rw [answers_some hknown]
        refine iff_of_true ?_ hall
        simp only [run, getAllFriends_near hn, if_pos hall]
        rfl
      · refine iff_of_false (not_answers (e := .noMethodError) ?_ (by simp)) hall
        simp only [run, getAllFriends_near hn, if_neg hall]
        rfl
    | none =>
      by_cases he : Hash.isEmpty c.securityGroups = true
      · obtain ⟨hget, hk⟩ := getVnic_no_groups hn he
        have hknown : Lookup.getAllFriends.known c vnicId = none := hk
        rw [answers_none hknown]
        refine iff_of_true ?_ he
        simp only [run, Cache.getAllFriends, hget]
        exact .error
      · refine iff_of_false (not_answers (e := .typeError) ?_ (by simp)) he
        simp only [run, Cache.getAllFriends, getVnic_raises hn he]
        rfl
  | getVnicNetwork =>
    simp only [Safe]
    cases hn : c.nearVnic vnicId with
    | some vnic =>
      obtain ⟨hget, hk⟩ := getVnic_near hn
      have hknown : Lookup.getVnicNetwork.known c vnicId = some vnic := hk
      rw [answers_some hknown]
      refine iff_of_true ?_ rfl
      simp only [run, Cache.getVnicNetwork, hget]
      rfl
    | none =>
      refine iff_of_false ?_ (by simp)
      by_cases he : Hash.isEmpty c.securityGroups = true
      · refine not_answers (e := .noMethodError) ?_ (by simp)
        simp only [run, Cache.getVnicNetwork, (getVnic_no_groups hn he).1]
        rfl
      · refine not_answers (e := .typeError) ?_ (by simp)
        simp only [run, Cache.getVnicNetwork, getVnic_raises hn he]
        rfl

/-! ## A vnic that is not known -/

def oneGroupDb : Db where
  vnics := AList.insert "vif-a".toList
    ⟨⟨"vif-a".toList, none, none, none, some "nw-a".toList, ["sg-a".toList]⟩,
      some ⟨"hva-a".toList, true, true, true⟩⟩ ∅
  groups := AList.insert "sg-a".toList [] ∅
  networks := AList.insert "nw-a".toList ⟨.securityGroup⟩ ∅
  references := []

/-- In the cache the node starts with, the search for an unknown vnic raises. -/
theorem unknown_vnic_raises :
    ¬ Lookup.getVnic.Answers (oneGroupDb.getNetfilterData "hva-a".toList) "vif-b".toList ∧
      (oneGroupDb.getNetfilterData "hva-a".toList).getVnic "vif-b".toList = .error .typeError := by
  have hraises : (oneGroupDb.getNetfilterData "hva-a".toList).getVnic "vif-b".toList =
      .error .typeError := by decide +kernel
  refine ⟨not_answers (e := .typeError) ?_ (by simp), hraises⟩
  rw [run, hraises]
  rfl

end Lookup

end Netfilter

end WakameVdc
