import Pgpod.Effect.Prog
import Pgpod.Effect.Machine
import Pgpod.Core.Text
import Pgpod.Core.Ids
import Pgpod.Core.Lifecycle
import Pgpod.Core.Spec
import Pgpod.Core.Manifest
import Pgpod.Runtime.Container
import Pgpod.Control.Error
import Pgpod.Control.ContainerSpec
import Pgpod.Control.Adoption
import Pgpod.Core.Upgrade
import Pgpod.Agent.Roles
import Pgpod.Agent.Volume
import Pgpod.Agent.Instance
import Pgpod.Agent.Upgrade
import Pgpod.Effect.Attempts
import Pgpod.Agent.Frame
import Pgpod.Agent.Main
import Pgpod.Agent.Swap
import Pgpod.Agent.Bootstrap
import Pgpod.Agent.Pooler
import Pgpod.Agent.Holds
import Pgpod.Control.Records
import Pgpod.Control.Upgrade
import Pgpod.Control.Settle
import Pgpod.Control.Operations
import Pgpod.Control.World
import Pgpod.Control.Instances
import Pgpod.Control.Backup
import Pgpod.Control.UpgradeJobs
import Pgpod.Control.Apply
import Pgpod.Control.ContainerNames
import Pgpod.Pg.Conf
import Pgpod.Control.AgentChecks
import Pgpod.Backup.Config
import Pgpod.Control.HoldRuns
import Pgpod.Control.Kept
import Pgpod.Control.PoolerApply
import Pgpod.Control.PoolerAdoption
import Pgpod.Registry.Rows
import Pgpod.Control.Resume
import Pgpod.Control.BootIsolation
import Pgpod.Control.Restore
import Pgpod.Control.Makes
import Pgpod.Control.RestoredImage
import Pgpod.Control.Delete
import Pgpod.Control.Ledger
import Pgpod.Control.LedgerFrame
import Pgpod.Control.Framed
import Pgpod.Control.Converge
import Pgpod.Control.Reached
import Pgpod.Control.Rows
import Pgpod.Control.BackupVolumes
import Pgpod.Backup.Confined
import Pgpod.Backup.Render
import Pgpod.Control.Refusal
import Pgpod.Control.PoolerCommands
import Pgpod.Pooler.Config
import Pgpod.Control.PoolerCredentials
import Pgpod.Registry.Sql
import Pgpod.Registry.Integrity
import Pgpod.Registry.Generations
import Pgpod.Control.Ports
import Pgpod.Agent.Include
import Pgpod.Core.Duration
import Pgpod.Agent.RolePasswords
import Pgpod.Core.Credentials
import Pgpod.Control.RoleSql
import Pgpod.Core.Bytes
import Pgpod.Core.Streaming
import Pgpod.Pooler.Admin
import Pgpod.Pooler.Console
import Pgpod.Agent.Elf
import Pgpod.Agent.Agreement
import Pgpod.Core.Getopt
import Pgpod.Pg.Initdb
import Pgpod.Pg.InitdbExtras
import Pgpod.Core.InstanceIds
import Pgpod.Core.Search
import Pgpod.Runtime.Http
import Pgpod.Runtime.Responses
import Pgpod.Agent.ElfFile
import Pgpod.Agent.ElfTotal
import Pgpod.Agent.Deadlines
import Pgpod.Pg.Hba
import Pgpod.Pg.ManagedConf
import Pgpod.Agent.Configuration
import Pgpod.Agent.Supervise
import Pgpod.Control.Resumed
import Pgpod.Control.Foretold
import Pgpod.Control.Replacement
import Pgpod.Control.Interleaved
