import WakameVdc.Lib.Run
import WakameVdc.Lib.Table
import WakameVdc.Lib.Text
import WakameVdc.Lib.Ipv4
import WakameVdc.QueuedJob
import WakameVdc.SecurityGroupRule
import WakameVdc.SecurityGroupRuleSound
import WakameVdc.SecurityGroupTask
import WakameVdc.SecurityGroupSource
import WakameVdc.SecurityGroupPacket
import WakameVdc.QueuedJobSound
import WakameVdc.QueuedJobRun
import WakameVdc.QueuedJobRace
import WakameVdc.JobQueue
import WakameVdc.HaManager
import WakameVdc.HaManagerSound
import WakameVdc.Evacuate
import WakameVdc.EvacuateSound
import WakameVdc.EvacuateRun
import WakameVdc.Lib.Holders
import WakameVdc.Lib.Proc
import WakameVdc.IpLease
import WakameVdc.IpLeaseSound
import WakameVdc.IpLeaseWrites
import WakameVdc.Lib.Hash
import WakameVdc.IpLeaseRun
import WakameVdc.DhcpRange
import WakameVdc.IpLeaseCount
import WakameVdc.IpLeaseReserved
import WakameVdc.IpHandle
import WakameVdc.NetfilterCache
import WakameVdc.ServiceNetfilter
import WakameVdc.ReferenceeSound
import WakameVdc.ReferenceeStep
import WakameVdc.ReferenceeJoin
import WakameVdc.ReferenceeRun
import WakameVdc.IsolationSound
import WakameVdc.IsolationCache
import WakameVdc.IsolationMethods
import WakameVdc.IsolationStep
import WakameVdc.IsolationHandler
import WakameVdc.IsolationRun
import WakameVdc.Lib.Hex
import WakameVdc.MacLease
import WakameVdc.MacLeaseSound
import WakameVdc.VnicStore
import WakameVdc.NetfilterSubscription
import WakameVdc.SubscriptionEntry
import WakameVdc.SubscriptionSound
import WakameVdc.SubscriptionHandler
import WakameVdc.SubscriptionLeave
import WakameVdc.SubscriptionRun
import WakameVdc.Metadata
import WakameVdc.Taggable
import WakameVdc.NetworkVifMonitor
import WakameVdc.SecurityGroupText
import WakameVdc.SecurityGroupReference
import WakameVdc.SecurityGroupReferenceSound
import WakameVdc.SecurityGroupReferenceRun
import WakameVdc.Lib.Chains
import WakameVdc.Lib.Words
import WakameVdc.OpenvnetRules
import WakameVdc.InstanceJob
import WakameVdc.InstanceBoot
import WakameVdc.InstanceStop
import WakameVdc.InstanceCleanup
import WakameVdc.InstanceCleanupSound
import WakameVdc.HostNodeScheduler
import WakameVdc.HostNodeSchedulerSound
import WakameVdc.Lib.Generated
import WakameVdc.SecurityGroupIncrement
import WakameVdc.LoadBalancer
import WakameVdc.LoadBalancerSound
import WakameVdc.InstanceTerminate
import WakameVdc.IpLeaseDestroy
import WakameVdc.ScheduleInstance
import WakameVdc.ScheduleInstanceSound
import WakameVdc.VolumeBackup
import WakameVdc.MacLeaseRun
import WakameVdc.HostnameLease
import WakameVdc.HostnameLeaseSound
import WakameVdc.VifIndex
import WakameVdc.VifIndexSound
import WakameVdc.NetworkRoute
import WakameVdc.NetworkRouteSound
import WakameVdc.VolumePlacement
import WakameVdc.VolumePlacementSound
import WakameVdc.VolumePlacementRun
import WakameVdc.ReferenceEvent
import WakameVdc.ReferenceEventSound
import WakameVdc.Lib.FlowTable
import WakameVdc.OpenFlow
import WakameVdc.Lib.Gap
import WakameVdc.IpLeaseAvailable
import WakameVdc.IpLeaseIncremental
import WakameVdc.IpLeaseRequested
import WakameVdc.MacRange
import WakameVdc.SecurityGroupSyntax
import WakameVdc.IpHandleExpire
import WakameVdc.QuotaEvaluation
import WakameVdc.QuotaEvaluationSound
import WakameVdc.Natbox
import WakameVdc.NatboxSound
import WakameVdc.InstanceReport
import WakameVdc.OpenFlowGroupSound
import WakameVdc.OpenFlowControllerSound
import WakameVdc.HaHistory
import WakameVdc.HaConditionSound
import WakameVdc.VolumeDevice
import WakameVdc.PipedRulesSound
import WakameVdc.EvacuateSpace
import WakameVdc.OpenvnetRanges
import WakameVdc.NetfilterLookup
import WakameVdc.JobQueueWorkerSound
import WakameVdc.NetfilterTask
import WakameVdc.TaskManager
import WakameVdc.TaskManagerSound
import WakameVdc.RulesUpdated
import WakameVdc.RulesUpdatedSound
import WakameVdc.LoadBalancerPorts
import WakameVdc.Lib.Shell
import WakameVdc.ShellDump
import WakameVdc.Lib.Arrange
import WakameVdc.TimeSeries
import WakameVdc.Alarm
import WakameVdc.AlarmSound
import WakameVdc.AlarmManager
import WakameVdc.ResourceLabel
import WakameVdc.NetworkVifMonitorBulk
import WakameVdc.Lib.Pages
import WakameVdc.Paging
import WakameVdc.Lib.Loop
import WakameVdc.Lib.Scan
import WakameVdc.Lib.Timeline
import WakameVdc.Tryagain
import WakameVdc.KvmListenPorts
import WakameVdc.Migration
import WakameVdc.DomainCapacity
import WakameVdc.KvmPciSlots
import WakameVdc.InstanceSecurityGroups
import WakameVdc.OpenFlowServices
import WakameVdc.ChangedColumns
import WakameVdc.AccountingLog
import WakameVdc.HistorySnapshot
import WakameVdc.NetworkGroup
import WakameVdc.NetworkGroupSound
import WakameVdc.Haproxy
import WakameVdc.TextLog
import WakameVdc.TaggableFind
import WakameVdc.ByteUnit
import WakameVdc.MetadataDnat
import WakameVdc.ResourceLabelMap
import WakameVdc.ResourceLabelApi
import WakameVdc.MonitorItem
import WakameVdc.MonitorItemLabels
import WakameVdc.MonitorItemSound
import WakameVdc.Lib.Percent
import WakameVdc.Lib.Csv
import WakameVdc.Lib.Outbox
import WakameVdc.LogAlarmConfig
import WakameVdc.LogAlarm
import WakameVdc.LogAlarmSound
import WakameVdc.GuestLog
import WakameVdc.GuestLogSound
import WakameVdc.Lib.Base64
import WakameVdc.Lib.Script
import WakameVdc.LoadBalancerMessage
import WakameVdc.Lib.Sessions
import WakameVdc.VolumeAttach
import WakameVdc.VolumeAttachSound
import WakameVdc.ImageBackup
import WakameVdc.ImageBackupSound
import WakameVdc.Lib.Dir
import WakameVdc.ImageCache
import WakameVdc.ImageCacheSound
import WakameVdc.ImageCacheSize
