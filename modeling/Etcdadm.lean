import Etcdadm.Prog
import Etcdadm.Monitor
import Etcdadm.Guarded
import Etcdadm.Interplay
import Etcdadm.Serial
import Etcdadm.Api
import Etcdadm.GoMap
import Etcdadm.Gossip
import Etcdadm.EtcdServer
import Etcdadm.Node
import Etcdadm.NodeMoves
import Etcdadm.Agreement
import Etcdadm.HandlerCrash
import Etcdadm.TwoPhaseJoin
import Etcdadm.Bootstrap
import Etcdadm.EtcdVersions
import Etcdadm.Controller
import Etcdadm.ControllerSteps
import Etcdadm.ControllerRun
import Etcdadm.ControllerFacts
import Etcdadm.Iteration
import Etcdadm.Sight
import Etcdadm.Lookback
import Etcdadm.Election
import Etcdadm.Hearsay
import Etcdadm.Restore
import Etcdadm.Quarantine
import Etcdadm.Upkeep
import Etcdadm.BackupFirst
import Etcdadm.Resize
import Etcdadm.Expand
import Etcdadm.Leadership
import Etcdadm.Upgrade
import Etcdadm.Rolling
import Etcdadm.TlsMigration
import Etcdadm.Exposure
import Etcdadm.LastHealthy
import Etcdadm.Replacement
import Etcdadm.Fleet
import Etcdadm.Formation
import Etcdadm.Fencing
import Etcdadm.Calendar
import Etcdadm.Vfs
import Etcdadm.CommandStore
import Etcdadm.BackupStore
import Etcdadm.BackupNames
import Etcdadm.Retention
import Etcdadm.Hosts
import Etcdadm.Disk
import Etcdadm.LegacyImport
import Etcdadm.ImportCrashes
import Etcdadm.VolumeMounter
import Etcdadm.DeviceIdentity
import Etcdadm.VolumeProviders
import Etcdadm.VolumeAttach
import Etcdadm.DeviceMap
import Etcdadm.GoogleCloudUrl
import Etcdadm.ExternalVolumes
import Etcdadm.TagMatching
import Etcdadm.CopyTo
import Etcdadm.ContentLock
import Etcdadm.InitialCluster
import Etcdadm.JoinMembership
import Etcdadm.RetentionTiers
import Etcdadm.HumanDuration
import Etcdadm.HostsRewrite
import Etcdadm.GoSlice
import Etcdadm.HostProvider
import Etcdadm.EnvironmentFile
import Etcdadm.Keypair
import Etcdadm.AltNames
import Etcdadm.CaBundle
import Etcdadm.BackupRestore
import Etcdadm.BackupRoundTrip
import Etcdadm.RestoreCleanup
import Etcdadm.Host
import Etcdadm.AdmConfig
import Etcdadm.PkiAssets
import Etcdadm.Phases
import Etcdadm.SafeSetup
import Etcdadm.StartPrepared
import Etcdadm.PeerIdentity
